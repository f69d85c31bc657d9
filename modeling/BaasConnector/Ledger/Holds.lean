import BaasConnector.Ledger.Outcomes

namespace BaasConnector.Ledger.Holds

open BaasConnector.Lib.Keyed BaasConnector.Taxonomy.Errors BaasConnector.Ledger.Types
open BaasConnector.Ledger.Engine BaasConnector.Ledger.MemoryStore BaasConnector.Ledger.Outcomes
open BaasConnector.Ledger.Shadow

def holdStatus (s : LedgerStore) (id : String) : Option LedgerTransactionStatus :=
  (s.transactions.get id).map (·.status)

/-- The accounts that a list of guarded deltas leads to, or none when an
account is missing or a balance would turn negative. -/
def applyDeltas (delta : LedgerEntryInput → CounterDelta) :
    List LedgerEntryInput → Accounts → Option Accounts
  | [], accounts => some accounts
  | input :: inputs, accounts =>
    match accounts.get input.accountId with
    | none => none
    | some before =>
      if violatesOverdraftGuard (applyDelta before (delta input)) then none
      else applyDeltas delta inputs (accounts.set input.accountId (applyDelta before (delta input)))

theorem buildEntries_of_deltas (mint : Mint) (transaction : LedgerTransaction) (phase : EntryPhase)
    (delta : LedgerEntryInput → CounterDelta) (index : Nat) (inputs : List LedgerEntryInput)
    (accounts after : Accounts) (h : applyDeltas delta inputs accounts = some after) :
    ∃ entries, buildEntries mint transaction phase delta index inputs accounts =
      .ok (entries, after) := by
  induction inputs generalizing index accounts with
  | nil =>
    simp only [applyDeltas, Option.some.injEq] at h
    exact ⟨[], by rw [buildEntries, h]⟩
  | cons input inputs ih =>
    rw [applyDeltas] at h
    rw [buildEntries]
    cases hb : accounts.get input.accountId with
    | none => simp [hb] at h
    | some before =>
      simp only [hb] at h ⊢
      by_cases hv : violatesOverdraftGuard (applyDelta before (delta input)) = true
      · simp [hv] at h
      · rw [if_neg hv] at h ⊢
        obtain ⟨entries, he⟩ := ih (index + 1) _ h
        rw [he]
        exact ⟨_, rfl⟩

theorem deltas_of_buildEntries (mint : Mint) (transaction : LedgerTransaction) (phase : EntryPhase)
    (delta : LedgerEntryInput → CounterDelta) (index : Nat) (inputs : List LedgerEntryInput)
    (accounts after : Accounts) (entries : List LedgerEntry)
    (h : buildEntries mint transaction phase delta index inputs accounts = .ok (entries, after)) :
    applyDeltas delta inputs accounts = some after ∧ entries.length = inputs.length := by
  induction inputs generalizing index accounts entries with
  | nil =>
    simp only [buildEntries, Except.ok.injEq, Prod.mk.injEq] at h
    simp [applyDeltas, ← h.1, ← h.2]
  | cons input inputs ih =>
    rw [buildEntries] at h
    rw [applyDeltas]
    cases hb : accounts.get input.accountId with
    | none => simp [hb] at h
    | some before =>
      simp only [hb] at h ⊢
      by_cases hv : violatesOverdraftGuard (applyDelta before (delta input)) = true
      · simp [hv] at h
      · rw [if_neg hv] at h ⊢
        cases hr : buildEntries mint transaction phase delta (index + 1) inputs
            (accounts.set input.accountId (applyDelta before (delta input))) with
        | error e => simp [hr] at h
        | ok b =>
          obtain ⟨rest, last⟩ := b
          simp only [hr, Except.ok.injEq, Prod.mk.injEq] at h
          obtain ⟨hd, hl⟩ := ih (index + 1) _ rest (by rw [hr, h.2])
          exact ⟨hd, by rw [← h.1, List.length_cons, hl, List.length_cons]⟩

/-- The engine accepts the resolution of this hold under this key as new. -/
def Resolvable (s : LedgerStore) (id key : String) (commit : Bool) : Prop :=
  s.findByIdempotencyKey key = none ∧ holdStatus s id = some .PENDING ∧
    (applyDeltas (resolveDelta commit) (pendingInputs s id)
      (s.lockAccounts (lockOrder (pendingInputs s id)))).isSome

instance (s : LedgerStore) (id key : String) (commit : Bool) : Decidable (Resolvable s id key commit) := by
  unfold Resolvable
  infer_instance

variable {s : LedgerStore} {mint : Mint} {id key : String} {type : Option LedgerTransactionType}
  {commit : Bool}

theorem resolved_transactions {pending : LedgerTransaction} (hp : s.transactions.get id = some pending)
    (options : ResolveOptions) (entries : List LedgerEntry) (accounts : Accounts) (k : String) :
    (resolved mint id options commit pending entries accounts s).transactions.get k =
      if k = id then some (resolvedPending mint commit pending)
      else if k = mint.transactionId then some (resolution mint id options commit pending)
      else s.transactions.get k := by
  have hid : pending.id = id := Rows.key_of_get hp
  have hr : (resolvedPending mint commit pending).id = id := hid
  unfold resolved LedgerStore.persist
  simp only
  rw [Rows.get_put, hr, Rows.get_put]
  rfl

theorem resolve_of_resolvable (mint : Mint) (type : Option LedgerTransactionType)
    (h : Resolvable s id key commit) :
    ∃ pending entries accounts, s.transactions.get id = some pending ∧ pending.status = .PENDING ∧
      runExclusive (resolvePending mint id ⟨key, type⟩ commit) s =
        (.ok ⟨resolution mint id ⟨key, type⟩ commit pending, entries, false⟩,
          resolved mint id ⟨key, type⟩ commit pending entries accounts s) := by
  obtain ⟨hk, hs, hd⟩ := h
  obtain ⟨pending, hp, hst⟩ := Option.map_eq_some_iff.mp hs
  obtain ⟨after, ha⟩ := Option.isSome_iff_exists.mp hd
  obtain ⟨entries, he⟩ := buildEntries_of_deltas mint (resolution mint id ⟨key, type⟩ commit pending)
    (resolvePhase commit) _ 0 _ _ _ ha
  refine ⟨pending, entries, after, hp, hst, ?_⟩
  rw [resolvePending_run, hk]
  simp only [hp, hst, ne_eq, not_true_eq_false, if_false, resolveEntries, he]

theorem resolve_unchanged (h : ¬ Resolvable s id key commit) :
    (runExclusive (resolvePending mint id ⟨key, type⟩ commit) s).2 = s := by
  rw [resolvePending_run]
  cases hk : s.findByIdempotencyKey key with
  | some existing => rfl
  | none =>
    cases hp : s.transactions.get id with
    | none => rfl
    | some pending =>
      by_cases hst : pending.status = .PENDING
      · simp only [hst, ne_eq, not_true_eq_false, if_false]
        cases he : resolveEntries mint id ⟨key, type⟩ commit pending s with
        | error e => rfl
        | ok b =>
          obtain ⟨entries, after⟩ := b
          have hd := (deltas_of_buildEntries _ _ _ _ _ _ _ _ _ he).1
          exact absurd ⟨hk, by simp [holdStatus, hp, hst], by simp [hd]⟩ h
      · simp only [ne_eq, hst, not_false_eq_true, if_true]

theorem resolve_error (mint : Mint) (type : Option LedgerTransactionType)
    (h : ¬ Resolvable s id key commit) (hk : s.findByIdempotencyKey key = none) :
    ∃ e, (runExclusive (resolvePending mint id ⟨key, type⟩ commit) s).1 = .error e := by
  rw [resolvePending_run, hk]
  cases hp : s.transactions.get id with
  | none => exact ⟨_, rfl⟩
  | some pending =>
    by_cases hst : pending.status = .PENDING
    · simp only [hst, ne_eq, not_true_eq_false, if_false]
      cases he : resolveEntries mint id ⟨key, type⟩ commit pending s with
      | error e => exact ⟨e, rfl⟩
      | ok b =>
        obtain ⟨entries, after⟩ := b
        have hd := (deltas_of_buildEntries _ _ _ _ _ _ _ _ _ he).1
        exact absurd ⟨hk, by simp [holdStatus, hp, hst], by simp [hd]⟩ h
    · simp only [ne_eq, hst, not_false_eq_true, if_true]
      exact ⟨_, rfl⟩

/-- The two commands that resolve a hold, as one. -/
def resolveCommand (commit : Bool) (hold key : String) : LedgerCommand :=
  if commit then .settleOut hold key else .voidOut hold key

def resolveType (commit : Bool) : LedgerTransactionType :=
  if commit then .PIX_OUT_SETTLE else .PIX_OUT_VOID

theorem perform_resolve (mint : Mint) (s : LedgerStore) (commit : Bool) (hold key : String) :
    (resolveCommand commit hold key).perform mint s =
      run (resolvePending mint hold ⟨key, some (resolveType commit)⟩ commit) s := by
  cases commit <;> rfl

theorem run_snd (p : StoreProg PostTransactionResult) (s : LedgerStore) :
    (run p s).2 = (runExclusive p s).2 := by
  unfold run
  cases h : runExclusive p s with
  | mk r s' => cases r <;> rfl

theorem perform_resolve_unchanged (h : ¬ Resolvable s id key commit) :
    ((resolveCommand commit id key).perform mint s).2 = s := by
  rw [perform_resolve, run_snd, resolve_unchanged h]

theorem perform_resolve_resolvable (mint : Mint) (h : Resolvable s id key commit) :
    ∃ pending entries accounts, s.transactions.get id = some pending ∧ pending.status = .PENDING ∧
      (resolveCommand commit id key).perform mint s =
        (.ok ⟨resolution mint id ⟨key, some (resolveType commit)⟩ commit pending, entries, false⟩,
          resolved mint id ⟨key, some (resolveType commit)⟩ commit pending entries accounts s) := by
  obtain ⟨pending, entries, accounts, hp, hst, hr⟩ :=
    resolve_of_resolvable mint (some (resolveType commit)) h
  refine ⟨pending, entries, accounts, hp, hst, ?_⟩
  rw [perform_resolve, run, hr]

def resolvedStatus (commit : Bool) : LedgerTransactionStatus := if commit then .POSTED else .VOIDED

/-- The ledger has resolved the hold, with exactly one resolving transaction. -/
def ResolvedOnce (s : LedgerStore) (hold : String) (commit : Bool) : Prop :=
  holdStatus s hold = some (resolvedStatus commit) ∧
    ∃! id, ∃ t, s.transactions.get id = some t ∧ t.pendingTransactionId = some hold

section Resolved

variable {pending : LedgerTransaction} (options : ResolveOptions) (entries : List LedgerEntry)
  (accounts : Accounts)

theorem resolved_holdStatus (hp : s.transactions.get id = some pending) :
    holdStatus (resolved mint id options commit pending entries accounts s) id =
      some (resolvedStatus commit) := by
  rw [holdStatus, resolved_transactions hp, if_pos rfl]
  rfl

theorem resolved_once (hp : s.transactions.get id = some pending)
    (hfresh : s.transactions.get mint.transactionId = none)
    (hnone : ∀ k t, s.transactions.get k = some t → t.pendingTransactionId ≠ some id) :
    ResolvedOnce (resolved mint id options commit pending entries accounts s) id commit := by
  have hne : mint.transactionId ≠ id := fun h => by simp [h, hp] at hfresh
  refine ⟨resolved_holdStatus options entries accounts hp, mint.transactionId, ?_, ?_⟩
  · refine ⟨resolution mint id options commit pending, ?_, rfl⟩
    rw [resolved_transactions hp, if_neg hne, if_pos rfl]
  · rintro k ⟨t, ht, hpt⟩
    rw [resolved_transactions hp] at ht
    by_cases hk : k = id
    · rw [if_pos hk, Option.some.injEq] at ht
      rw [← ht] at hpt
      exact absurd hpt (hnone id pending hp)
    · rw [if_neg hk] at ht
      by_cases hm : k = mint.transactionId
      · exact hm
      · rw [if_neg hm] at ht
        exact absurd hpt (hnone k t ht)

theorem resolved_keys {k : String} (hk : k ≠ options.idempotencyKey)
    (hfree : s.byIdempotencyKey.get k = none) :
    (resolved mint id options commit pending entries accounts s).byIdempotencyKey.get k = none := by
  unfold resolved LedgerStore.persist
  simp only [List.isEmpty_nil, if_true]
  split
  · exact hfree
  · have hkey : (resolution mint id options commit pending).idempotencyKey = options.idempotencyKey :=
      rfl
    rw [Table.get_set, hkey, if_neg hk]
    exact hfree

end Resolved

theorem findByIdempotencyKey_none (h : s.byIdempotencyKey.get key = none) :
    s.findByIdempotencyKey key = none := by
  simp [LedgerStore.findByIdempotencyKey, h]

theorem perform_resolve_error (h : ¬ Resolvable s id key commit)
    (hk : s.findByIdempotencyKey key = none) (mint : Mint) :
    (∃ e, ((resolveCommand commit id key).perform mint s).1 = .error e) ∧
      ((resolveCommand commit id key).perform mint s).2 = s := by
  refine ⟨?_, perform_resolve_unchanged h⟩
  obtain ⟨e, he⟩ := resolve_error mint (some (resolveType commit)) h hk
  rw [perform_resolve, run]
  cases hr : runExclusive (resolvePending mint id ⟨key, some (resolveType commit)⟩ commit) s with
  | mk r s' =>
    rw [hr] at he
    simp only at he
    subst he
    exact ⟨_, rfl⟩

theorem findByIdempotencyKey_status {r : PostTransactionResult}
    (h : s.findByIdempotencyKey key = some r) :
    holdStatus s r.transaction.id = some r.transaction.status := by
  unfold LedgerStore.findByIdempotencyKey at h
  simp only [Option.bind_eq_bind, Option.bind_eq_some_iff, Option.pure_def, Option.some.injEq] at h
  obtain ⟨id, _, transaction, ht, rfl⟩ := h
  have hid : transaction.id = id := Rows.key_of_get ht
  simp [holdStatus, hid, ht]

theorem resolved_holdStatus_of_ne {pending : LedgerTransaction} {k : String}
    (hp : s.transactions.get id = some pending) (options : ResolveOptions)
    (entries : List LedgerEntry) (accounts : Accounts) (hk : k ≠ id) (hm : k ≠ mint.transactionId) :
    holdStatus (resolved mint id options commit pending entries accounts s) k = holdStatus s k := by
  rw [holdStatus, resolved_transactions hp, if_neg hk, if_neg hm]
  rfl

theorem persist_holdStatus_of_ne {transaction : LedgerTransaction} (entries : List LedgerEntry)
    (accounts : List LedgerAccount) {k : String} (hk : k ≠ transaction.id) :
    holdStatus (s.persist transaction entries accounts) k = holdStatus s k := by
  rw [holdStatus, LedgerStore.persist, Rows.get_put, if_neg hk]
  rfl

/-- A posting fails, is replayed, or adds one transaction under a new id. -/
theorem post_cases (mint : Mint) (input : PostTransactionInput) (s : LedgerStore) :
    ((∃ e, (run (post mint input) s).1 = .error e) ∧ (run (post mint input) s).2 = s) ∨
    (∃ existing, s.findByIdempotencyKey input.idempotencyKey = some existing ∧
      (run (post mint input) s).1 = .ok { existing with replayed := true } ∧
      (run (post mint input) s).2 = s) ∨
    ∃ debits entries accounts, s.findByIdempotencyKey input.idempotencyKey = none ∧
      (run (post mint input) s).1 = .ok ⟨postedTransaction mint input debits, entries, false⟩ ∧
      (run (post mint input) s).2 =
        s.persist (postedTransaction mint input debits) entries accounts := by
  unfold run
  rw [post_run]
  cases hk : s.findByIdempotencyKey input.idempotencyKey with
  | some existing => exact .inr (.inl ⟨existing, rfl, rfl, rfl⟩)
  | none =>
    cases assertBalanced input.entries with
    | error e => exact .inl ⟨⟨_, rfl⟩, rfl⟩
    | ok debits =>
      dsimp only
      cases assertAccountsExist input.entries (s.lockAccounts (lockOrder input.entries)) with
      | error e => exact .inl ⟨⟨_, rfl⟩, rfl⟩
      | ok _ =>
        dsimp only
        cases postEntries mint input debits s with
        | error e => exact .inl ⟨⟨_, rfl⟩, rfl⟩
        | ok b => exact .inr (.inr ⟨debits, b.1, _, rfl, rfl, rfl⟩)

/-- The hold a successful authorization answers with, on the ledger it leaves. -/
theorem authorizeOut_cases (mint : Mint) (s : LedgerStore) (availableId : String) (amountCents : Int)
    (key : String) (externalRef : Option String) {r : Except Thrown PostTransactionResult}
    {s' : LedgerStore}
    (h : (LedgerCommand.authorizeOut availableId amountCents key externalRef).perform mint s =
      (r, s')) :
    ((∃ e, r = .error e) ∧ s' = s) ∨
    (∃ existing, s.findByIdempotencyKey key = some existing ∧
      r = .ok { existing with replayed := true } ∧ s' = s) ∨
    ∃ hold entries accounts, s.findByIdempotencyKey key = none ∧ r = .ok ⟨hold, entries, false⟩ ∧
      hold.id = mint.transactionId ∧ hold.status = .PENDING ∧ s' = s.persist hold entries accounts := by
  unfold LedgerCommand.perform withExternal at h
  cases hx : s.accountIdByCode externalWorldCode with
  | none =>
    simp only [hx, Prod.mk.injEq] at h
    exact .inl ⟨⟨_, h.1.symm⟩, h.2.symm⟩
  | some externalId =>
    simp only [hx] at h
    rcases post_cases mint (transferInput .PIX_OUT_AUTHORIZE .PENDING availableId externalId
      amountCents key externalRef mint.now) s with
      ⟨⟨e, he⟩, hs⟩ | ⟨existing, hk, hr, hs⟩ | ⟨debits, entries, accounts, hk, hr, hs⟩ <;>
      rw [h] at *
    · exact .inl ⟨⟨e, he⟩, hs⟩
    · exact .inr (.inl ⟨existing, hk, hr, hs⟩)
    · exact .inr (.inr ⟨_, entries, accounts, hk, hr, rfl, rfl, hs⟩)

/-- A credit leaves every ledger transaction that exists in its status. -/
theorem creditIn_holdStatus (mint : Mint) (s : LedgerStore) (availableId : String) (amountCents : Int)
    (key : String) (externalRef : Option String) {k : String} (hk : k ≠ mint.transactionId) :
    holdStatus ((LedgerCommand.creditIn availableId amountCents key externalRef).perform mint s).2 k =
      holdStatus s k := by
  unfold LedgerCommand.perform withExternal
  cases s.accountIdByCode externalWorldCode with
  | none => rfl
  | some externalId =>
    simp only
    rcases post_cases mint (transferInput .PIX_IN_RECEIVE .POSTED externalId availableId amountCents
      key externalRef mint.now) s with ⟨_, hs⟩ | ⟨_, _, _, hs⟩ | ⟨debits, entries, accounts, _, _, hs⟩
    · rw [hs]
    · rw [hs]
    · rw [hs]
      exact persist_holdStatus_of_ne entries accounts hk

end BaasConnector.Ledger.Holds
