import BaasConnector.Ledger.Reachable

namespace BaasConnector.Ledger.Calls

open BaasConnector.Lib.Effects BaasConnector.Lib.Keyed BaasConnector.Ledger.Types
open BaasConnector.Ledger.Engine BaasConnector.Ledger.MemoryStore BaasConnector.Ledger.Outcomes
open BaasConnector.Ledger.Holds BaasConnector.Ledger.Placement BaasConnector.Ledger.Adjustments
open BaasConnector.Ledger.Receipts BaasConnector.Ledger.ChartOfAccounts BaasConnector.Ledger.Reachable

/-- One call of the engine. -/
inductive EngineCall
  | post (mint : Mint) (input : PostTransactionInput)
  | resolvePending (mint : Mint) (pendingTransactionId : String) (options : ResolveOptions)
      (commit : Bool)

namespace EngineCall

def commitPending (mint : Mint) (pendingTransactionId : String) (options : ResolveOptions) :
    EngineCall := .resolvePending mint pendingTransactionId options true

def voidPending (mint : Mint) (pendingTransactionId : String) (options : ResolveOptions) :
    EngineCall := .resolvePending mint pendingTransactionId options false

def key : EngineCall → String
  | .post _ input => input.idempotencyKey
  | .resolvePending _ _ options _ => options.idempotencyKey

/-- What a call answers, and the store it leaves, which undoes nothing when it fails. -/
def run (s : LedgerStore) : EngineCall → Except LedgerThrown PostTransactionResult × LedgerStore
  | .post mint input => (Engine.post mint input).eval answer s
  | .resolvePending mint id options true => (Engine.commitPending mint id options).eval answer s
  | .resolvePending mint id options false => (Engine.voidPending mint id options).eval answer s

def operation : EngineCall → Operation
  | .post mint input => .post mint input
  | .resolvePending mint id options true => .commitPending mint id options
  | .resolvePending mint id options false => .voidPending mint id options

theorem perform_operation (s : LedgerStore) (c : EngineCall) : c.operation.perform s = (c.run s).2 := by
  cases c with
  | post mint input => rfl
  | resolvePending mint id options commit => cases commit <;> rfl

end EngineCall

variable {s s' : LedgerStore} {c : EngineCall} {r : Except LedgerThrown PostTransactionResult}

/-- What a call can do: fail, answer what stands under its key, add a new
transaction, or add the resolution of a hold and settle the hold. -/
inductive Outcome (s : LedgerStore) :
    EngineCall → Except LedgerThrown PostTransactionResult → LedgerStore → Prop
  | failed (c : EngineCall) (e : LedgerThrown) : Outcome s c (.error e) s
  | replayed (c : EngineCall) (existing : PostTransactionResult)
      (hkey : s.findByIdempotencyKey c.key = some existing) :
      Outcome s c (.ok { existing with replayed := true }) s
  | posted (mint : Mint) (input : PostTransactionInput) (debits : Int) (entries : List LedgerEntry)
      (after : Accounts) (hkey : s.findByIdempotencyKey input.idempotencyKey = none)
      (hbalanced : assertBalanced input.entries = .ok debits)
      (hbuilt : postEntries mint input debits s = .ok (entries, after)) :
      Outcome s (.post mint input) (.ok ⟨postedTransaction mint input debits, entries, false⟩)
        (s.persist (postedTransaction mint input debits) entries after.values)
  | resolved (mint : Mint) (id : String) (options : ResolveOptions) (commit : Bool)
      (pending : LedgerTransaction) (entries : List LedgerEntry) (after : Accounts)
      (hkey : s.findByIdempotencyKey options.idempotencyKey = none)
      (hget : s.transactions.get id = some pending) (hpending : pending.status = .PENDING)
      (hbuilt : resolveEntries mint id options commit pending s = .ok (entries, after)) :
      Outcome s (.resolvePending mint id options commit)
        (.ok ⟨resolution mint id options commit pending, entries, false⟩)
        (resolved mint id options commit pending entries after s)

theorem run_resolve (s : LedgerStore) (mint : Mint) (id : String) (options : ResolveOptions)
    (commit : Bool) : (EngineCall.resolvePending mint id options commit).run s =
      runExclusive (Engine.resolvePending mint id options commit) s := by
  rw [← resolve_failsClean]
  cases commit <;> rfl

theorem run_post (s : LedgerStore) (mint : Mint) (input : PostTransactionInput) :
    (EngineCall.post mint input).run s = runExclusive (Engine.post mint input) s :=
  post_failsClean mint input s

theorem run_outcome (s : LedgerStore) (c : EngineCall) : Outcome s c (c.run s).1 (c.run s).2 := by
  cases c with
  | post mint input =>
    rw [run_post, post_run]
    cases hk : s.findByIdempotencyKey input.idempotencyKey with
    | some existing => exact .replayed (.post mint input) existing hk
    | none =>
      cases hb : assertBalanced input.entries with
      | error e => exact .failed _ e
      | ok debits =>
        dsimp only
        cases assertAccountsExist input.entries (s.lockAccounts (lockOrder input.entries)) with
        | error e => exact .failed _ e
        | ok _ =>
          dsimp only
          cases hp : postEntries mint input debits s with
          | error e => exact .failed _ e
          | ok built => exact .posted mint input debits built.1 built.2 hk hb hp
  | resolvePending mint id options commit =>
    rw [run_resolve, resolvePending_run]
    cases hk : s.findByIdempotencyKey options.idempotencyKey with
    | some existing => exact .replayed (.resolvePending mint id options commit) existing hk
    | none =>
      cases hp : s.transactions.get id with
      | none => exact .failed _ _
      | some pending =>
        dsimp only
        by_cases hpending : pending.status = .PENDING
        · rw [if_neg (not_not.mpr hpending)]
          cases hb : resolveEntries mint id options commit pending s with
          | error e => exact .failed _ e
          | ok built =>
            exact .resolved mint id options commit pending built.1 built.2 hk hp hpending hb
        · rw [if_pos hpending]
          exact .failed _ _

theorem run_replayed {existing : PostTransactionResult}
    (hkey : s.findByIdempotencyKey c.key = some existing) :
    c.run s = (.ok { existing with replayed := true }, s) := by
  cases c with
  | post mint input =>
    change s.findByIdempotencyKey input.idempotencyKey = some existing at hkey
    rw [run_post, post_run, hkey]
  | resolvePending mint id options commit =>
    change s.findByIdempotencyKey options.idempotencyKey = some existing at hkey
    rw [run_resolve, resolvePending_run, hkey]

/-- The index of keys and the links between transactions are those of the
transactions, and no transaction is without entries. -/
structure Indexed (s : LedgerStore) : Prop where
  used : ∀ k id, s.byIdempotencyKey.get k = some id →
    ∃ t, s.transactions.get id = some t ∧ t.idempotencyKey = k
  found : ∀ id t, s.transactions.get id = some t → s.byIdempotencyKey.get t.idempotencyKey = some id
  entered : ∀ id t, s.transactions.get id = some t → s.entriesOf id ≠ []
  linked : ∀ id t hold, s.transactions.get id = some t → t.pendingTransactionId = some hold →
    t.status ≠ .PENDING ∧ holdStatus s hold = some t.status

theorem Indexed.find (h : Indexed s) {id : String} {t : LedgerTransaction}
    (ht : s.transactions.get id = some t) :
    s.findByIdempotencyKey t.idempotencyKey = some ⟨t, s.entriesOf id, true⟩ := by
  simp [LedgerStore.findByIdempotencyKey, h.found id t ht, ht]

theorem Indexed.unused (h : Indexed s) {k : String} (hk : s.findByIdempotencyKey k = none) :
    s.byIdempotencyKey.get k = none := by
  cases hget : s.byIdempotencyKey.get k with
  | none => rfl
  | some id =>
    obtain ⟨t, ht, rfl⟩ := h.used k id hget
    rw [h.find ht] at hk
    cases hk

theorem Indexed.of_find (h : Indexed s) {k : String} {existing : PostTransactionResult}
    (hk : s.findByIdempotencyKey k = some existing) :
    ∃ id t, s.transactions.get id = some t ∧ t.idempotencyKey = k ∧
      existing = ⟨t, s.entriesOf id, true⟩ := by
  cases hget : s.byIdempotencyKey.get k with
  | none =>
    rw [findByIdempotencyKey_none hget] at hk
    cases hk
  | some id =>
    obtain ⟨t, ht, rfl⟩ := h.used k id hget
    rw [h.find ht] at hk
    exact ⟨id, t, ht, rfl, (Option.some.inj hk).symm⟩

section Persist

variable {t : LedgerTransaction} {es : List LedgerEntry} (accounts : List LedgerAccount)

theorem persist_byKey (hne : es ≠ []) (k : String) :
    (s.persist t es accounts).byIdempotencyKey.get k =
      if k = t.idempotencyKey then some t.id else s.byIdempotencyKey.get k := by
  have hempty : es.isEmpty = false := by simp [hne]
  unfold LedgerStore.persist
  simp only [hempty, Bool.false_eq_true, if_false]
  exact Table.get_set _ _ _ _

theorem persist_entries (hne : es ≠ []) (id : String) :
    (s.persist t es accounts).entriesOf id = if id = t.id then es else s.entriesOf id := by
  by_cases hid : id = t.id
  · rw [if_pos hid, hid]
    exact persist_entriesOf accounts hne
  · rw [if_neg hid]
    exact persist_entriesOf_of_ne es accounts hid

theorem persist_get (id : String) :
    (s.persist t es accounts).transactions.get id =
      if id = t.id then some t else s.transactions.get id :=
  Rows.get_put s.transactions id t

end Persist

theorem Indexed.posted (h : Indexed s) {t : LedgerTransaction} {es : List LedgerEntry}
    (accounts : List LedgerAccount) (hne : es ≠ []) (hfree : s.transactions.get t.id = none)
    (hkey : s.byIdempotencyKey.get t.idempotencyKey = none) (hlink : t.pendingTransactionId = none) :
    Indexed (s.persist t es accounts) := by
  have hold : ∀ {id u}, s.transactions.get id = some u → id ≠ t.id := by
    rintro id u hu rfl
    rw [hfree] at hu
    cases hu
  constructor
  · intro k id hk
    rw [persist_byKey accounts hne] at hk
    split at hk
    · next heq =>
      obtain rfl := Option.some.inj hk
      exact ⟨t, by rw [persist_get, if_pos rfl], heq.symm⟩
    · obtain ⟨u, hu, huk⟩ := h.used k id hk
      exact ⟨u, by rw [persist_get, if_neg (hold hu), hu], huk⟩
  · intro id u hu
    rw [persist_byKey accounts hne]
    rw [persist_get] at hu
    split at hu
    · next heq =>
      obtain rfl := Option.some.inj hu
      rw [if_pos rfl, heq]
    · have hfound := h.found id u hu
      rw [if_neg, hfound]
      intro he
      rw [he, hkey] at hfound
      cases hfound
  · intro id u hu
    rw [persist_entries accounts hne]
    rw [persist_get] at hu
    split at hu
    · next heq => rwa [if_pos heq]
    · next hne' =>
      rw [if_neg hne']
      exact h.entered id u hu
  · intro id u hold' hu hlinked
    rw [persist_get] at hu
    split at hu
    · obtain rfl := Option.some.inj hu
      rw [hlink] at hlinked
      cases hlinked
    · obtain ⟨hstatus, hhold⟩ := h.linked id u hold' hu hlinked
      refine ⟨hstatus, ?_⟩
      rw [persist_holdStatus_of_ne es accounts, hhold]
      rintro rfl
      rw [holdStatus, hfree] at hhold
      cases hhold

section Resolved

variable {mint : Mint} {id : String} {options : ResolveOptions} {commit : Bool}
  {pending : LedgerTransaction} {es : List LedgerEntry} {after : Accounts}

theorem resolved_byKey (hne : es ≠ []) (k : String) :
    (resolved mint id options commit pending es after s).byIdempotencyKey.get k =
      if k = options.idempotencyKey then some mint.transactionId else s.byIdempotencyKey.get k :=
  persist_byKey (t := resolution mint id options commit pending) after.values hne k

theorem resolved_entries (hne : es ≠ []) (k : String) :
    (resolved mint id options commit pending es after s).entriesOf k =
      if k = mint.transactionId then es else s.entriesOf k :=
  persist_entries (t := resolution mint id options commit pending) after.values hne k

theorem Indexed.resolved (h : Indexed s) (hne : es ≠ [])
    (hget : s.transactions.get id = some pending) (hpending : pending.status = .PENDING)
    (hfree : s.transactions.get mint.transactionId = none)
    (hkey : s.byIdempotencyKey.get options.idempotencyKey = none) :
    Indexed (resolved mint id options commit pending es after s) := by
  have hidne : id ≠ mint.transactionId := by
    rintro rfl
    rw [hget] at hfree
    cases hfree
  have hold : ∀ {k u}, s.transactions.get k = some u → k ≠ mint.transactionId := by
    rintro k u hu rfl
    rw [hfree] at hu
    cases hu
  constructor
  · intro k k' hk
    rw [resolved_byKey hne] at hk
    split at hk
    · next heq =>
      obtain rfl := Option.some.inj hk
      exact ⟨resolution mint id options commit pending,
        by rw [resolved_transactions hget, if_neg (Ne.symm hidne), if_pos rfl], heq.symm⟩
    · obtain ⟨u, hu, huk⟩ := h.used k k' hk
      by_cases hk' : k' = id
      · rw [hk', hget, Option.some.injEq] at hu
        exact ⟨resolvedPending mint commit pending,
          by rw [resolved_transactions hget, if_pos hk'], by rw [← huk, ← hu]; rfl⟩
      · exact ⟨u, by rw [resolved_transactions hget, if_neg hk', if_neg (hold hu), hu], huk⟩
  · intro k u hu
    rw [resolved_byKey hne]
    have hfound : ∀ v, s.transactions.get k = some v → (if v.idempotencyKey = options.idempotencyKey
        then some mint.transactionId else s.byIdempotencyKey.get v.idempotencyKey) = some k := by
      intro v hv
      have hv' := h.found k v hv
      rw [if_neg, hv']
      intro he
      rw [he, hkey] at hv'
      cases hv'
    rw [resolved_transactions hget] at hu
    split at hu
    · next heq =>
      obtain rfl := Option.some.inj hu
      exact hfound pending (heq ▸ hget)
    · split at hu
      · next heq =>
        obtain rfl := Option.some.inj hu
        rw [heq]
        exact if_pos rfl
      · exact hfound u hu
  · intro k u hu
    rw [resolved_entries hne]
    rw [resolved_transactions hget] at hu
    split at hu
    · next heq =>
      rw [if_neg (heq ▸ hidne), heq]
      exact h.entered id pending hget
    · split at hu
      · next heq => rwa [if_pos heq]
      · next hk =>
        rw [if_neg hk]
        exact h.entered k u hu
  · intro k u hold' hu hlinked
    rw [resolved_transactions hget] at hu
    split at hu
    · obtain rfl := Option.some.inj hu
      exact absurd hpending (h.linked id pending hold' hget hlinked).1
    · split at hu
      · obtain rfl := Option.some.inj hu
        obtain rfl := Option.some.inj hlinked
        rw [resolved_holdStatus options es after hget]
        refine ⟨?_, rfl⟩
        cases commit <;> simp [resolution]
      · obtain ⟨hstatus, hhold⟩ := h.linked k u hold' hu hlinked
        refine ⟨hstatus, ?_⟩
        rw [resolved_holdStatus_of_ne hget options es after, hhold]
        · rintro rfl
          rw [holdStatus, hget, Option.map_some, hpending, Option.some.injEq] at hhold
          exact hstatus hhold.symm
        · rintro rfl
          rw [holdStatus, hfree] at hhold
          cases hhold

end Resolved

/-- The same transaction, which may have been resolved in between. -/
def SameTransaction (t t' : LedgerTransaction) : Prop :=
  t' = { t with status := t'.status, postedAt := t'.postedAt, voidedAt := t'.voidedAt }

instance (t t' : LedgerTransaction) : Decidable (SameTransaction t t') :=
  inferInstanceAs (Decidable (_ = _))

theorem SameTransaction.refl (t : LedgerTransaction) : SameTransaction t t := rfl

theorem SameTransaction.trans {t u v : LedgerTransaction} (h : SameTransaction t u)
    (h' : SameTransaction u v) : SameTransaction t v := by
  unfold SameTransaction at h h' ⊢
  rw [h', h]

/-- No key is freed, no transaction lost and no entry changed. -/
structure Grows (s s' : LedgerStore) : Prop where
  keys : ∀ k id, s.byIdempotencyKey.get k = some id → s'.byIdempotencyKey.get k = some id
  transactions : ∀ id t, s.transactions.get id = some t →
    ∃ t', s'.transactions.get id = some t' ∧ SameTransaction t t' ∧ s'.entriesOf id = s.entriesOf id

theorem Grows.refl (s : LedgerStore) : Grows s s :=
  ⟨fun _ _ h => h, fun _ t h => ⟨t, h, SameTransaction.refl t, rfl⟩⟩

theorem Grows.trans {s'' : LedgerStore} (h : Grows s s') (h' : Grows s' s'') : Grows s s'' := by
  refine ⟨fun k id hk => h'.keys k id (h.keys k id hk), fun id t ht => ?_⟩
  obtain ⟨t', ht', hsame, hentries⟩ := h.transactions id t ht
  obtain ⟨t'', ht'', hsame', hentries'⟩ := h'.transactions id t' ht'
  exact ⟨t'', ht'', hsame.trans hsame', hentries'.trans hentries⟩

theorem createFrom_index (s : LedgerStore) (id : String) (t : AccountTemplate) :
    (createFrom s id t).byIdempotencyKey = s.byIdempotencyKey := by
  unfold createFrom
  split <;> rfl

theorem openCustomerAccounts_eq (s : LedgerStore) (availableId blockedId customerAccountId : String) :
    (openCustomerAccounts s availableId blockedId customerAccountId).entries = s.entries ∧
      (openCustomerAccounts s availableId blockedId customerAccountId).transactions = s.transactions ∧
      (openCustomerAccounts s availableId blockedId customerAccountId).byIdempotencyKey =
        s.byIdempotencyKey := by
  obtain ⟨hentries, htransactions⟩ := createFrom_entries
    (createFrom s availableId (availableTemplate customerAccountId)) blockedId
    (blockedTemplate customerAccountId)
  obtain ⟨hentries', htransactions'⟩ := createFrom_entries s availableId
    (availableTemplate customerAccountId)
  refine ⟨hentries.trans hentries', htransactions.trans htransactions', ?_⟩
  exact (createFrom_index _ _ _).trans (createFrom_index _ _ _)

theorem Indexed.congr (h : Indexed s) (hentries : s'.entries = s.entries)
    (htransactions : s'.transactions = s.transactions)
    (hindex : s'.byIdempotencyKey = s.byIdempotencyKey) : Indexed s' := by
  have hof : ∀ id, s'.entriesOf id = s.entriesOf id := fun id => by
    rw [LedgerStore.entriesOf, hentries, LedgerStore.entriesOf]
  have hstatus : ∀ id, holdStatus s' id = holdStatus s id := fun id => by
    rw [holdStatus, htransactions, holdStatus]
  constructor
  · rw [hindex, htransactions]
    exact h.used
  · rw [hindex, htransactions]
    exact h.found
  · intro id t ht
    rw [hof]
    exact h.entered id t (htransactions ▸ ht)
  · intro id t hold ht hlinked
    rw [hstatus]
    exact h.linked id t hold (htransactions ▸ ht) hlinked

theorem posted_entries_ne {mint : Mint} {input : PostTransactionInput} {debits : Int}
    {es : List LedgerEntry} {after : Accounts} (hbalanced : assertBalanced input.entries = .ok debits)
    (hbuilt : postEntries mint input debits s = .ok (es, after)) : es ≠ [] := by
  rintro rfl
  have hinputs : [] = input.entries := buildEntries_inputs _ _ _ _ hbuilt
  rw [← hinputs] at hbalanced
  cases hbalanced

theorem resolved_entries_ne {mint : Mint} {id : String} {options : ResolveOptions} {commit : Bool}
    {pending : LedgerTransaction} {es : List LedgerEntry} {after : Accounts} (h : Indexed s)
    (hget : s.transactions.get id = some pending)
    (hbuilt : resolveEntries mint id options commit pending s = .ok (es, after)) : es ≠ [] := by
  rintro rfl
  have hinputs : [] = pendingInputs s id := buildEntries_inputs _ _ _ _ hbuilt
  exact h.entered id pending hget (List.map_eq_nil_iff.mp hinputs.symm)

/-- The id that a new transaction of the call is given is not in use. -/
def EngineCall.Fresh (s : LedgerStore) (c : EngineCall) : Prop := c.operation.Fresh s

theorem EngineCall.Fresh.resolve {mint : Mint} {id : String} {options : ResolveOptions} {commit : Bool}
    (h : (EngineCall.resolvePending mint id options commit).Fresh s) :
    s.transactions.get mint.transactionId = none := by
  cases commit <;> exact h.2

theorem Outcome.indexed (ho : Outcome s c r s') (h : Indexed s) (hfresh : c.Fresh s) : Indexed s' := by
  cases ho with
  | failed => exact h
  | replayed => exact h
  | posted mint input debits es after hkey hbalanced hbuilt =>
    exact h.posted after.values (posted_entries_ne hbalanced hbuilt) (hfresh hkey).2 (h.unused hkey) rfl
  | resolved mint id options commit pending es after hkey hget hpending hbuilt =>
    exact h.resolved (resolved_entries_ne h hget hbuilt) hget hpending hfresh.resolve (h.unused hkey)

theorem Outcome.grows (ho : Outcome s c r s') (h : Indexed s) (hfresh : c.Fresh s) : Grows s s' := by
  cases ho with
  | failed => exact Grows.refl s
  | replayed => exact Grows.refl s
  | posted mint input debits es after hkey hbalanced hbuilt =>
    have hne := posted_entries_ne hbalanced hbuilt
    refine ⟨fun k id hk => ?_, fun id t ht => ⟨t, ?_, SameTransaction.refl t, ?_⟩⟩
    · rw [persist_byKey after.values hne, if_neg, hk]
      rintro rfl
      cases (h.unused hkey).symm.trans hk
    · rw [persist_get, if_neg, ht]
      rintro rfl
      cases (hfresh hkey).2.symm.trans ht
    · rw [persist_entries after.values hne, if_neg]
      rintro rfl
      cases (hfresh hkey).2.symm.trans ht
  | resolved mint id options commit pending es after hkey hget hpending hbuilt =>
    have hne := resolved_entries_ne h hget hbuilt
    have hold : ∀ {k t}, s.transactions.get k = some t → k ≠ mint.transactionId := by
      rintro k t ht rfl
      rw [hfresh.resolve] at ht
      cases ht
    refine ⟨fun k k' hk => ?_, fun k t ht => ?_⟩
    · rw [resolved_byKey hne, if_neg, hk]
      rintro rfl
      rw [h.unused hkey] at hk
      cases hk
    · rw [resolved_transactions hget, resolved_entries hne, if_neg (hold ht), if_neg (hold ht)]
      by_cases hk : k = id
      · rw [hk, hget, Option.some.injEq] at ht
        subst ht
        exact ⟨_, if_pos hk, rfl, rfl⟩
      · exact ⟨t, by rw [if_neg hk, ht], SameTransaction.refl t, rfl⟩

variable {op : Operation} {ops : List Operation}

theorem perform_indexed (h : Indexed s) (hfresh : op.Fresh s) :
    Indexed (op.perform s) ∧ Grows s (op.perform s) := by
  have hcall : ∀ c : EngineCall, c.Fresh s →
      Indexed (c.operation.perform s) ∧ Grows s (c.operation.perform s) := by
    intro c hc
    have ho := run_outcome s c
    rw [EngineCall.perform_operation]
    exact ⟨ho.indexed h hc, ho.grows h hc⟩
  cases op with
  | openCustomerAccounts availableId blockedId customerAccountId =>
    obtain ⟨hentries, htransactions, hindex⟩ :=
      openCustomerAccounts_eq s availableId blockedId customerAccountId
    refine ⟨h.congr hentries htransactions hindex, fun k id hk => ?_, fun id t ht => ⟨t, ?_, rfl, ?_⟩⟩
    · exact (congrArg (·.get k) hindex).trans hk
    · exact (congrArg (·.get id) htransactions).trans ht
    · exact congrArg (fun entries => (entries.get id).getD []) hentries
  | post mint input => exact hcall (.post mint input) hfresh
  | commitPending mint id options => exact hcall (.commitPending mint id options) hfresh
  | voidPending mint id options => exact hcall (.voidPending mint id options) hfresh

theorem performAll_indexed (h : Indexed s) (hfresh : FreshAll s ops) :
    Indexed (performAll s ops) ∧ Grows s (performAll s ops) := by
  induction ops generalizing s with
  | nil => exact ⟨h, Grows.refl s⟩
  | cons op ops ih =>
    obtain ⟨hstep, hgrows⟩ := perform_indexed h hfresh.1
    obtain ⟨hrest, hgrows'⟩ := ih hstep hfresh.2
    exact ⟨hrest, hgrows.trans hgrows'⟩

theorem createAll_eq (s : LedgerStore) (seeds : List (String × AccountTemplate)) :
    (createAll s seeds).entries = s.entries ∧ (createAll s seeds).transactions = s.transactions ∧
      (createAll s seeds).byIdempotencyKey = s.byIdempotencyKey := by
  induction seeds generalizing s with
  | nil => exact ⟨rfl, rfl, rfl⟩
  | cons seed seeds ih =>
    obtain ⟨hentries, htransactions⟩ := createFrom_entries s seed.1 seed.2
    obtain ⟨hentries', htransactions', hindex⟩ := ih (createFrom s seed.1 seed.2)
    exact ⟨hentries'.trans hentries, htransactions'.trans htransactions,
      hindex.trans (createFrom_index s seed.1 seed.2)⟩

theorem empty_indexed : Indexed .empty := by
  constructor <;> intros <;> simp_all [LedgerStore.empty]

theorem newStore_indexed (newId : Nat → String) : Indexed (newStore newId) := by
  obtain ⟨hentries, htransactions, hindex⟩ := createAll_eq .empty
    (((List.range singletonAccounts.length).map newId).zip singletonAccounts)
  exact empty_indexed.congr hentries htransactions hindex

/-- The ledger after the operations, from the store as it is constructed. -/
def ledgerAfter (newId : Nat → String) (ops : List Operation) : LedgerStore :=
  performAll (newStore newId) ops

theorem ledgerAfter_indexed (newId : Nat → String) (h : FreshAll (newStore newId) ops) :
    Indexed (ledgerAfter newId ops) := (performAll_indexed (newStore_indexed newId) h).1

theorem performAll_append (s : LedgerStore) (before after : List Operation) :
    performAll s (before ++ after) = performAll (performAll s before) after := by
  induction before generalizing s with
  | nil => rfl
  | cons op before ih => exact ih (op.perform s)

theorem freshAll_append {before after : List Operation} :
    FreshAll s (before ++ after) ↔ FreshAll s before ∧ FreshAll (performAll s before) after := by
  induction before generalizing s with
  | nil => exact ⟨fun h => ⟨trivial, h⟩, fun h => h.2⟩
  | cons op before ih =>
    rw [List.cons_append]
    constructor
    · rintro ⟨hop, hrest⟩
      obtain ⟨hbefore, hafter⟩ := ih.mp hrest
      exact ⟨⟨hop, hbefore⟩, hafter⟩
    · rintro ⟨⟨hop, hbefore⟩, hafter⟩
      exact ⟨hop, ih.mpr ⟨hbefore, hafter⟩⟩

end BaasConnector.Ledger.Calls
