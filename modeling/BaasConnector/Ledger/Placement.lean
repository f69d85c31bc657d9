import BaasConnector.Ledger.Adjustments

namespace BaasConnector.Ledger.Placement

open BaasConnector.Lib.Keyed BaasConnector.Ledger.Types BaasConnector.Taxonomy.Errors
open BaasConnector.Ledger.Engine BaasConnector.Ledger.MemoryStore BaasConnector.Ledger.Outcomes
open BaasConnector.Ledger.Shadow BaasConnector.Ledger.Holds BaasConnector.Ledger.Adjustments

/-- The ledger transaction takes this amount out of the account. -/
def Reserves (s : LedgerStore) (id availableId : String) (amountCents : Int) : Prop :=
  ∃ t, s.transactions.get id = some t ∧ t.amountCents = amountCents ∧
    (⟨availableId, .DEBIT, amountCents⟩ : LedgerEntryInput) ∈ pendingInputs s id

/-- What stands under the key, if anything, takes this amount out of the account. -/
def Placed (s : LedgerStore) (key availableId : String) (amountCents : Int) : Prop :=
  ∀ id, s.byIdempotencyKey.get key = some id → Reserves s id availableId amountCents

/-- The key stands for a pending transaction that has the full amount reserved. -/
def Live (s : LedgerStore) (key availableId : String) (amountCents : Int) : Prop :=
  ∃ id, s.byIdempotencyKey.get key = some id ∧ holdStatus s id = some .PENDING ∧
    Reserves s id availableId amountCents

/-- The key has not been used, or it stands for a pending transaction. -/
def Open (s : LedgerStore) (key : String) : Prop :=
  ∀ id, s.byIdempotencyKey.get key = some id → holdStatus s id = some .PENDING

variable {s s' : LedgerStore} {key availableId : String} {amountCents : Int} {mint : Mint}

/-- An accepted list of entries is balanced, and every amount in it positive. -/
theorem assertBalanced_ok {entries : List LedgerEntryInput} {debits : Int}
    (h : assertBalanced entries = .ok debits) :
    debits = sumDirection .DEBIT entries ∧ ∀ entry ∈ entries, 0 < entry.amountCents := by
  unfold assertBalanced at h
  split at h
  · cases h
  · cases hf : entries.find? (fun entry => decide (entry.amountCents ≤ 0)) with
    | some entry => simp [hf] at h
    | none =>
      simp only [hf] at h
      split at h
      · refine ⟨(Except.ok.inj h).symm, fun entry he => ?_⟩
        have hn := List.find?_eq_none.mp hf entry he
        simpa using hn
      · cases h

/-- The outcomes of a posting, with what a new one stores. -/
theorem post_outcomes (mint : Mint) (input : PostTransactionInput) (s : LedgerStore) :
    ((∃ e, (run (post mint input) s).1 = .error e) ∧ (run (post mint input) s).2 = s) ∨
    (∃ existing, s.findByIdempotencyKey input.idempotencyKey = some existing ∧
      (run (post mint input) s).1 = .ok { existing with replayed := true } ∧
      (run (post mint input) s).2 = s) ∨
    ∃ debits entries accounts, s.findByIdempotencyKey input.idempotencyKey = none ∧
      assertBalanced input.entries = .ok debits ∧
      entries.map (·.toLedgerEntryInput) = input.entries ∧
      (run (post mint input) s).1 = .ok ⟨postedTransaction mint input debits, entries, false⟩ ∧
      (run (post mint input) s).2 =
        s.persist (postedTransaction mint input debits) entries accounts := by
  unfold run
  rw [post_run]
  cases hk : s.findByIdempotencyKey input.idempotencyKey with
  | some existing => exact .inr (.inl ⟨existing, rfl, rfl, rfl⟩)
  | none =>
    cases hb : assertBalanced input.entries with
    | error e => exact .inl ⟨⟨_, rfl⟩, rfl⟩
    | ok debits =>
      dsimp only
      cases assertAccountsExist input.entries (s.lockAccounts (lockOrder input.entries)) with
      | error e => exact .inl ⟨⟨_, rfl⟩, rfl⟩
      | ok _ =>
        dsimp only
        cases hp : postEntries mint input debits s with
        | error e => exact .inl ⟨⟨_, rfl⟩, rfl⟩
        | ok built =>
          exact .inr (.inr ⟨debits, built.1, _, rfl, rfl, buildEntries_inputs _ _ _ _ hp, rfl, rfl⟩)

theorem findByIdempotencyKey_eq_none (hplaced : Placed s key availableId amountCents)
    (h : s.findByIdempotencyKey key = none) : s.byIdempotencyKey.get key = none := by
  cases hk : s.byIdempotencyKey.get key with
  | none => rfl
  | some id =>
    obtain ⟨t, ht, _⟩ := hplaced id hk
    simp [LedgerStore.findByIdempotencyKey, hk, ht] at h

/-- A new hold, as the ledger stores it. -/
theorem persist_live {t : LedgerTransaction} {entries : List LedgerEntry} {accounts : List LedgerAccount}
    (hkey : t.idempotencyKey = key) (hpending : t.status = .PENDING) (hamount : t.amountCents = amountCents)
    (hentry : (⟨availableId, .DEBIT, amountCents⟩ : LedgerEntryInput) ∈
      entries.map (·.toLedgerEntryInput)) :
    Live (s.persist t entries accounts) key availableId amountCents := by
  have hne : entries.isEmpty = false := by
    cases entries with
    | nil => simp at hentry
    | cons _ _ => rfl
  have hget : (s.persist t entries accounts).transactions.get t.id = some t := Rows.get_put_self _ t
  refine ⟨t.id, ?_, by rw [holdStatus, hget, Option.map_some, hpending], t, hget, hamount, ?_⟩
  · simp [LedgerStore.persist, hne, hkey]
  · simpa [pendingInputs, LedgerStore.entriesOf, LedgerStore.persist, hne] using hentry

/-- An authorization that goes through leaves a live hold under its key, as
long as none that is resolved stood there. -/
theorem authorizeOut_live {externalRef : Option String} {r : Except Thrown PostTransactionResult}
    (hplaced : Placed s key availableId amountCents) (hopen : Open s key)
    (h : (LedgerCommand.authorizeOut availableId amountCents key externalRef).perform mint s = (r, s')) :
    s' = s ∧ (∀ a, r = .ok a → Live s key availableId amountCents) ∨
      s.byIdempotencyKey.get key = none ∧ Live s' key availableId amountCents := by
  unfold LedgerCommand.perform withExternal at h
  cases hx : s.accountIdByCode externalWorldCode with
  | none =>
    simp only [hx, Prod.mk.injEq] at h
    exact .inl ⟨h.2.symm, fun a ha => by rw [← h.1] at ha; cases ha⟩
  | some externalId =>
    simp only [hx] at h
    rcases post_outcomes mint (transferInput .PIX_OUT_AUTHORIZE .PENDING availableId externalId
      amountCents key externalRef mint.now) s with
      ⟨⟨e, he⟩, hs⟩ | ⟨existing, hk, hr, hs⟩ | ⟨debits, entries, accounts, hk, hb, he, hr, hs⟩ <;>
      rw [h] at *
    · exact .inl ⟨hs, fun a ha => by cases he.symm.trans ha⟩
    · refine .inl ⟨hs, fun a _ => ?_⟩
      change s.findByIdempotencyKey key = some existing at hk
      cases hg : s.byIdempotencyKey.get key with
      | none => rw [findByIdempotencyKey_none hg] at hk; cases hk
      | some id => exact ⟨id, hg, hopen id hg, hplaced id hg⟩
    · refine .inr ⟨findByIdempotencyKey_eq_none hplaced hk, ?_⟩
      rw [show s' = _ from hs]
      refine persist_live rfl rfl ?_ (by rw [he]; exact List.mem_cons_self)
      have hd := (assertBalanced_ok hb).1
      rw [postedTransaction, hd]
      simp [sumDirection, transferInput]

theorem Live.placed (h : Live s key availableId amountCents) : Placed s key availableId amountCents := by
  obtain ⟨id, hk, _, hr⟩ := h
  intro k hk'
  rw [hk, Option.some.injEq] at hk'
  exact hk' ▸ hr

/-- The resolution of any hold under another key moves nothing that stands
under this one. -/
theorem voidOut_placed {hold voidKey : String} {r : Except Thrown PostTransactionResult}
    (hplaced : Placed s key availableId amountCents) (hne : key ≠ voidKey)
    (hfresh : s.transactions.get mint.transactionId = none)
    (h : (LedgerCommand.voidOut hold voidKey).perform mint s = (r, s')) :
    Placed s' key availableId amountCents := by
  have hs : s' = ((resolveCommand false hold voidKey).perform mint s).2 := congrArg Prod.snd h.symm
  by_cases hres : Resolvable s hold voidKey false
  · obtain ⟨pending, entries, accounts, hp, _, hrun⟩ := perform_resolve_resolvable mint hres
    rw [hrun] at hs
    subst hs
    intro id hk
    have hk' : s.byIdempotencyKey.get key = some id := by
      unfold resolved LedgerStore.persist at hk
      simp only [List.isEmpty_nil, if_true] at hk
      split at hk
      · exact hk
      · exact (Table.get_set_ne _ _ hne).symm.trans hk
    obtain ⟨t, ht, hamount, hentry⟩ := hplaced id hk'
    have hid : id ≠ mint.transactionId := fun he => by simp [he, hfresh] at ht
    have hinputs : pendingInputs (resolved mint hold ⟨voidKey, some (resolveType false)⟩ false pending
        entries accounts s) id = pendingInputs s id := by
      unfold pendingInputs LedgerStore.entriesOf resolved LedgerStore.persist
      simp only [List.isEmpty_nil, if_true]
      split
      · rfl
      · have hget : (s.entries.set mint.transactionId entries).get id = s.entries.get id :=
          Table.get_set_ne _ _ hid
        exact congrArg (fun e => (e.getD []).map fun x => x.toLedgerEntryInput) hget
    refine ⟨if id = hold then resolvedPending mint false pending else t, ?_, ?_, hinputs ▸ hentry⟩
    · rw [resolved_transactions hp, if_neg hid]
      by_cases hh : id = hold
      · rw [if_pos hh, if_pos hh]
      · rw [if_neg hh, if_neg hh, ht]
    · by_cases hh : id = hold
      · rw [hh, hp, Option.some.injEq] at ht
        rw [if_pos hh, ← hamount, ← ht]
        rfl
      · rw [if_neg hh, hamount]
  · rw [hs, perform_resolve_unchanged hres]
    exact hplaced

/-- The key that a command posts under. -/
def commandKey : LedgerCommand → String
  | .authorizeOut _ _ key _ | .settleOut _ key | .voidOut _ key | .creditIn _ _ key _
  | .adjust _ _ _ key _ => key

theorem persist_keys {t : LedgerTransaction} (entries : List LedgerEntry) (accounts : List LedgerAccount)
    {k : String} (hk : k ≠ t.idempotencyKey) :
    (s.persist t entries accounts).byIdempotencyKey.get k = s.byIdempotencyKey.get k := by
  unfold LedgerStore.persist
  simp only
  split
  · rfl
  · exact Table.get_set_ne _ _ hk

theorem post_keys {input : PostTransactionInput} {k : String} (hk : k ≠ input.idempotencyKey) :
    (run (post mint input) s).2.byIdempotencyKey.get k = s.byIdempotencyKey.get k := by
  obtain ⟨_, hs⟩ | ⟨_, _, _, hs⟩ | ⟨_, entries, accounts, _, _, hs⟩ := post_cases mint input s
  · rw [hs]
  · rw [hs]
  · rw [hs]
    exact persist_keys entries accounts hk

theorem resolve_keys (commit : Bool) {hold k : String} (hk : k ≠ key) :
    ((resolveCommand commit hold key).perform mint s).2.byIdempotencyKey.get k =
      s.byIdempotencyKey.get k := by
  by_cases hres : Resolvable s hold key commit
  · obtain ⟨pending, entries, accounts, _, _, hrun⟩ := perform_resolve_resolvable mint hres
    rw [hrun]
    exact persist_keys (t := resolution mint hold ⟨key, some (resolveType commit)⟩ commit pending)
      entries accounts.values hk
  · rw [perform_resolve_unchanged hres]

/-- A command uses no other key than its own. -/
theorem perform_keys (mint : Mint) (s : LedgerStore) (command : LedgerCommand) {k : String}
    (hk : k ≠ commandKey command) :
    (command.perform mint s).2.byIdempotencyKey.get k = s.byIdempotencyKey.get k := by
  cases command with
  | settleOut hold key => exact resolve_keys true hk
  | voidOut hold key => exact resolve_keys false hk
  | _ =>
    unfold LedgerCommand.perform withExternal
    cases s.accountIdByCode externalWorldCode with
    | none => rfl
    | some externalId => exact post_keys hk

/-- Nothing is authorized for an amount that is not positive. -/
theorem authorizeOut_positive {externalRef : Option String} {a : PostTransactionResult}
    (hfree : s.byIdempotencyKey.get key = none)
    (h : ((LedgerCommand.authorizeOut availableId amountCents key externalRef).perform mint s).1 =
      .ok a) : 0 < amountCents := by
  unfold LedgerCommand.perform withExternal at h
  cases hx : s.accountIdByCode externalWorldCode with
  | none => simp [hx] at h
  | some externalId =>
    simp only [hx] at h
    rcases post_outcomes mint (transferInput .PIX_OUT_AUTHORIZE .PENDING availableId externalId
      amountCents key externalRef mint.now) s with
      ⟨⟨e, he⟩, _⟩ | ⟨existing, hk, _⟩ | ⟨debits, _, _, _, hb, _⟩
    · cases he.symm.trans h
    · cases (findByIdempotencyKey_none hfree).symm.trans hk
    · exact (assertBalanced_ok hb).2 _ List.mem_cons_self

end BaasConnector.Ledger.Placement
