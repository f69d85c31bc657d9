import BaasConnector.Ledger.Calls
import BaasConnector.Ledger.Consistency

namespace BaasConnector.Ledger.Atomicity

open BaasConnector.Lib.Keyed BaasConnector.Ledger.Types BaasConnector.Ledger.Engine
open BaasConnector.Ledger.MemoryStore BaasConnector.Ledger.Outcomes BaasConnector.Ledger.Holds
open BaasConnector.Ledger.ChartOfAccounts BaasConnector.Ledger.Reachable BaasConnector.Ledger.Calls
open BaasConnector.Ledger.Consistency

variable {s s' : LedgerStore} {c : EngineCall} {r : PostTransactionResult}

/-- What a call answers stands under its key. -/
theorem outcome_stored (ho : Outcome s c (.ok r) s') (h : Indexed s) (hfresh : c.Fresh s) :
    ∃ id, s'.transactions.get id = some r.transaction ∧ s'.entriesOf id = r.entries ∧
      r.transaction.idempotencyKey = c.key := by
  generalize hr : Except.ok r = answer at ho
  cases ho with
  | failed => cases hr
  | replayed _ existing hkey =>
    obtain ⟨id, t, ht, hk, rfl⟩ := h.of_find hkey
    cases hr
    exact ⟨id, ht, rfl, hk⟩
  | posted mint input debits es after hkey hbalanced hbuilt =>
    cases hr
    refine ⟨(postedTransaction mint input debits).id, ?_, ?_, rfl⟩
    · rw [persist_get, if_pos rfl]
    · rw [persist_entries after.values (posted_entries_ne hbalanced hbuilt), if_pos rfl]
  | resolved mint id options commit pending es after hkey hget hpending hbuilt =>
    cases hr
    have hne : mint.transactionId ≠ id := by
      intro he
      cases (he ▸ hfresh.resolve).symm.trans hget
    refine ⟨mint.transactionId, ?_, ?_, rfl⟩
    · rw [resolved_transactions hget, if_neg hne, if_pos rfl]
    · rw [resolved_entries (resolved_entries_ne h hget hbuilt), if_pos rfl]

theorem outcome_unchanged {e : LedgerThrown} (ho : Outcome s c (.error e) s') : s' = s := by
  cases ho
  rfl

/-- A call that throws leaves the store as it was. A call whose key has been
used answers the transaction that stands under it, the one that was answered
first, and leaves the store as it was. -/
theorem calls_atomic (newId : Nat → String) (ops : List Operation)
    (hfresh : FreshAll (newStore newId) ops) (c : EngineCall) :
    (∀ e, (c.run (ledgerAfter newId ops)).1 = .error e →
      (c.run (ledgerAfter newId ops)).2 = ledgerAfter newId ops) ∧
    (∀ id t, (ledgerAfter newId ops).transactions.get id = some t →
      t.idempotencyKey = c.key → c.run (ledgerAfter newId ops) =
        (.ok ⟨t, (ledgerAfter newId ops).entriesOf id, true⟩, ledgerAfter newId ops)) ∧
    ∀ before (first : EngineCall) after (r : PostTransactionResult),
      ops = before ++ first.operation :: after → first.key = c.key →
      (first.run (ledgerAfter newId before)).1 = .ok r →
      ∃ t, SameTransaction r.transaction t ∧ c.run (ledgerAfter newId ops) =
        (.ok ⟨t, r.entries, true⟩, ledgerAfter newId ops) := by
  have hindexed := ledgerAfter_indexed newId hfresh
  have hreplay : ∀ id t, (ledgerAfter newId ops).transactions.get id = some t →
      t.idempotencyKey = c.key → c.run (ledgerAfter newId ops) =
        (.ok ⟨t, (ledgerAfter newId ops).entriesOf id, true⟩, ledgerAfter newId ops) := by
    intro id t ht hkey
    have hfind := hindexed.find ht
    rw [hkey] at hfind
    exact run_replayed hfind
  refine ⟨fun e he => ?_, hreplay, ?_⟩
  · have ho := run_outcome (ledgerAfter newId ops) c
    rw [he] at ho
    exact outcome_unchanged ho
  · rintro before first after r rfl hkey hr
    obtain ⟨hbefore, hfirst, hafter⟩ := freshAll_append.mp hfresh
    have hearlier := ledgerAfter_indexed newId hbefore
    have ho := run_outcome (ledgerAfter newId before) first
    rw [hr] at ho
    obtain ⟨id, ht, hentries, hstored⟩ := outcome_stored ho hearlier hfirst
    rw [← EngineCall.perform_operation] at ht hentries
    have hgrows := (performAll_indexed (perform_indexed hearlier hfirst).1 hafter).2
    obtain ⟨t', ht', hsame, hentries'⟩ := hgrows.transactions id r.transaction ht
    have hall : ledgerAfter newId (before ++ first.operation :: after) =
        performAll (first.operation.perform (ledgerAfter newId before)) after :=
      performAll_append _ _ _
    have hsameKey : t'.idempotencyKey = c.key := by rw [hsame, ← hkey, ← hstored]
    have hkept : (ledgerAfter newId (before ++ first.operation :: after)).entriesOf id = r.entries := by
      rw [hall]
      exact hentries'.trans hentries
    refine ⟨t', hsame, ?_⟩
    rw [hreplay id t' (hall ▸ ht') hsameKey, hkept]

/-- The keys of a hold that has been voided since, and a hold that is too large. -/
theorem calls_atomic_sample :
    FreshAll (newStore sampleId) sampleOperations ∧
      (∃ t, SameTransaction (postedTransaction (sampleMint "t4")
          (samplePost .PENDING "last" "c0" (sampleId 3) 40) 40) t ∧ t.status = .VOIDED ∧
        ((EngineCall.post (sampleMint "t6") (samplePost .PENDING "last" "c0" (sampleId 3) 90)).run
          (ledgerAfter sampleId sampleOperations)).1 =
            .ok ⟨t, (ledgerAfter sampleId sampleOperations).entriesOf "t4", true⟩) ∧
      ((EngineCall.post (sampleMint "t7") (samplePost .PENDING "large" "c0" (sampleId 3) 90)).run
        (ledgerAfter sampleId sampleOperations)).2 =
          ledgerAfter sampleId sampleOperations := by
  have hfresh : FreshAll (newStore sampleId) sampleOperations := by decide
  refine ⟨hfresh, ?_, ?_⟩
  · obtain ⟨t, ht, hsame, hkey, hstatus⟩ : ∃ t,
        (ledgerAfter sampleId sampleOperations).transactions.get "t4" = some t ∧
        SameTransaction (postedTransaction (sampleMint "t4")
          (samplePost .PENDING "last" "c0" (sampleId 3) 40) 40) t ∧
        t.idempotencyKey = "last" ∧ t.status = .VOIDED :=
      ⟨_, rfl, by decide, by decide, by decide⟩
    have hrun := (calls_atomic sampleId sampleOperations hfresh
      (.post (sampleMint "t6") (samplePost .PENDING "last" "c0" (sampleId 3) 90))).2.1 "t4" t ht hkey
    exact ⟨t, hsame, hstatus, congrArg Prod.fst hrun⟩
  · apply (calls_atomic sampleId sampleOperations hfresh
      (.post (sampleMint "t7") (samplePost .PENDING "large" "c0" (sampleId 3) 90))).1
    exact rfl

end BaasConnector.Ledger.Atomicity

namespace BaasConnector.Ledger.Availability

open BaasConnector.Lib.Keyed BaasConnector.Ledger.Types BaasConnector.Ledger.Engine
open BaasConnector.Ledger.MemoryStore BaasConnector.Ledger.Outcomes BaasConnector.Ledger.Holds
open BaasConnector.Ledger.Adjustments BaasConnector.Ledger.ChartOfAccounts BaasConnector.Ledger.Invariants
open BaasConnector.Ledger.Counters BaasConnector.Ledger.Books BaasConnector.Ledger.Reachable
open BaasConnector.Ledger.Calls BaasConnector.Ledger.Consistency BaasConnector.Ledger.Atomicity

/-- The direction in which a pending entry reserves funds of an account. -/
def reserving : NormalBalance → EntryDirection
  | .CREDIT => .DEBIT
  | .DEBIT => .CREDIT

def raising : NormalBalance → EntryDirection
  | .CREDIT => .CREDIT
  | .DEBIT => .DEBIT

/-- The availability that a hold of these entries takes from an account. -/
def taken (account : LedgerAccount) (inputs : List LedgerEntryInput) : Int :=
  inputsOn account.id (reserving account.normalBalance) inputs

def available (account : LedgerAccount) : Int := (computeBalances account).available

variable {s : LedgerStore} {inputs : List LedgerEntryInput} {a b : LedgerAccount} {commit : Bool}
  {mint : Mint} {hold : String} {options : ResolveOptions} {delta : LedgerEntryInput → CounterDelta}

theorem available_counters (a : LedgerAccount) :
    available a = counter a .POSTED (raising a.normalBalance) - counter a .POSTED
      (reserving a.normalBalance) -
      counter a .PENDING (reserving a.normalBalance) := by
  unfold available computeBalances
  cases a.normalBalance <;> rfl

theorem placed_available (h : Moved (deltaFor .PENDING) inputs a b) :
    available a - available b = taken a inputs := by
  have hposted : ∀ direction, counter b .POSTED direction = counter a .POSTED direction := by
    intro direction
    rw [h.counters, changeOn_deltaFor]
    simp
  rw [available_counters, available_counters, h.normalBalance, hposted, hposted, h.counters,
    changeOn_deltaFor, if_pos rfl, taken]
  omega

theorem resolved_available (h : Moved (resolveDelta commit) inputs a b) :
    available b = available a + if commit then inputsOn a.id (raising a.normalBalance) inputs
      else taken a inputs := by
  rw [available_counters, available_counters, h.normalBalance, h.counters, h.counters, h.counters,
    changeOn_resolveDelta, changeOn_resolveDelta, changeOn_resolveDelta, taken]
  cases commit
  · simp only [Bool.false_eq_true, if_false]
    omega
  · simp only [if_true]
    omega

theorem inputsOn_nonneg (accountId : String) (direction : EntryDirection)
    (h : ∀ i ∈ inputs, 0 < i.amountCents) : 0 ≤ inputsOn accountId direction inputs := by
  unfold inputsOn
  induction inputs with
  | nil => exact Int.le_refl 0
  | cons i inputs ih =>
    have hrest := ih fun i hi => h i (List.mem_cons_of_mem _ hi)
    have hi := h i List.mem_cons_self
    rw [List.filter_cons]
    split
    · rw [sumDirection_cons]
      split <;> omega
    · exact hrest

/-- No entry of a hold lowers the availability of its account when it is resolved. -/
theorem resolve_guarded {i : LedgerEntryInput} (hpositive : 0 < i.amountCents)
    (h : violatesOverdraftGuard a = false) :
    violatesOverdraftGuard (applyDelta a (resolveDelta commit i)) = false := by
  unfold violatesOverdraftGuard at h ⊢
  cases hn : a.allowsNegative with
  | true => exact if_pos hn
  | false =>
    rw [if_neg (by simp [hn])] at h
    rw [if_neg (by simp [applyDelta, hn])]
    simp only [decide_eq_false_iff_not, not_lt] at h ⊢
    have hgrows : (computeBalances a).available ≤
        (computeBalances (applyDelta a (resolveDelta commit i))).available := by
      unfold computeBalances applyDelta resolveDelta zeroDelta
      cases a.normalBalance <;> cases i.direction <;> cases commit <;> dsimp only <;> omega
    omega

/-- Deltas that break no guard go through. -/
theorem applyDeltas_isSome {accounts : Accounts}
    (hexist : ∀ i ∈ inputs, (accounts.get i.accountId).isSome)
    (hguarded : ∀ k a, accounts.get k = some a → violatesOverdraftGuard a = false)
    (hkeeps : ∀ i ∈ inputs, ∀ a, violatesOverdraftGuard a = false →
      violatesOverdraftGuard (applyDelta a (delta i)) = false) :
    (applyDeltas delta inputs accounts).isSome := by
  induction inputs generalizing accounts with
  | nil => rfl
  | cons i inputs ih =>
    obtain ⟨before, hbefore⟩ := Option.isSome_iff_exists.mp (hexist i List.mem_cons_self)
    have hafter := hkeeps i List.mem_cons_self before (hguarded _ _ hbefore)
    rw [applyDeltas, hbefore]
    simp only [hafter, Bool.false_eq_true, if_false]
    apply ih
    · intro j hj
      rw [Table.get_set]
      split
      · rfl
      · exact hexist j (List.mem_cons_of_mem _ hj)
    · intro k a ha
      rw [Table.get_set] at ha
      split at ha
      · obtain rfl := Option.some.inj ha
        exact hafter
      · exact hguarded k a ha
    · exact fun j hj => hkeeps j (List.mem_cons_of_mem _ hj)

theorem pendingInputs_filed (h : Sound s) {i : LedgerEntryInput} (hi : i ∈ pendingInputs s hold) :
    0 < i.amountCents ∧ (s.accounts.get i.accountId).isSome := by
  obtain ⟨e, he, rfl⟩ := List.mem_map.mp hi
  cases hes : s.entries.get hold with
  | none => simp [LedgerStore.entriesOf, hes] at he
  | some es =>
    rw [LedgerStore.entriesOf, hes, Option.getD_some] at he
    exact (h.owned hold es hes e he).2

/-- A pending hold can be resolved under any unused key. -/
theorem resolvable_of_sound (h : Sound s) (hpending : holdStatus s hold = some .PENDING)
    (hkey : s.findByIdempotencyKey options.idempotencyKey = none) :
    Resolvable s hold options.idempotencyKey commit := by
  refine ⟨hkey, hpending, applyDeltas_isSome (fun i hi => ?_) (fun k a ha => ?_) fun i hi a ha => ?_⟩
  · rw [lockAccounts_get, if_pos (mem_lockOrder.mpr ⟨i, hi, rfl⟩)]
    exact (pendingInputs_filed h hi).2
  · rw [lockAccounts_get] at ha
    split at ha
    · exact h.guarded k a ha
    · cases ha
  · exact resolve_guarded (pendingInputs_filed h hi).1 ha

/-- An account after all the deltas, whatever they lead through. -/
def accountAfter (delta : LedgerEntryInput → CounterDelta)
    (inputs : List LedgerEntryInput) (a : LedgerAccount) :
    LedgerAccount :=
  (inputs.filter (·.accountId = a.id)).foldl (fun a i => applyDelta a (delta i)) a

theorem accountAfter_untouched (h : ∀ i ∈ inputs, i.accountId ≠ a.id) : accountAfter delta inputs a = a := by
  have hnil : inputs.filter (·.accountId = a.id) = [] := by
    apply List.filter_eq_nil_iff.mpr
    intro i hi
    simpa using h i hi
  rw [accountAfter, hnil]
  rfl

theorem locked_keyed (s : LedgerStore) (ids : List String) (k : String) (a : LedgerAccount)
    (ha : (s.lockAccounts ids).get k = some a) : a.id = k := by
  rw [lockAccounts_get] at ha
  split at ha
  · exact Rows.key_of_get ha
  · cases ha

theorem applyDeltas_get {accounts after : Accounts} (hkeyed : ∀ k a, accounts.get k = some a → a.id = k)
    (h : applyDeltas delta inputs accounts = some after) (k : String) :
    after.get k = (accounts.get k).map (accountAfter delta inputs) := by
  induction inputs generalizing accounts with
  | nil =>
    obtain rfl := Option.some.inj h
    cases accounts.get k <;> rfl
  | cons i inputs ih =>
    rw [applyDeltas] at h
    cases hb : accounts.get i.accountId with
    | none => simp [hb] at h
    | some before =>
      rw [hb] at h
      dsimp only at h
      split at h
      · cases h
      · have hid : before.id = i.accountId := hkeyed _ _ hb
        rw [ih (fun k a ha => ?_) h, Table.get_set]
        · by_cases hk : k = i.accountId
          · rw [if_pos hk, hk, hb, Option.map_some, Option.map_some]
            have hfilter : (i :: inputs).filter (·.accountId = before.id) =
                i :: inputs.filter (·.accountId = before.id) := by simp [hid]
            rw [accountAfter, accountAfter, hfilter]
            rfl
          · rw [if_neg hk]
            cases ha : accounts.get k with
            | none => rfl
            | some a =>
              have hne : i.accountId ≠ a.id := by
                rw [hkeyed k a ha]
                exact Ne.symm hk
              have hfilter : (i :: inputs).filter (·.accountId = a.id) =
                  inputs.filter (·.accountId = a.id) := by simp [hne]
              rw [Option.map_some, Option.map_some, accountAfter, accountAfter, hfilter]
        · rw [Table.get_set] at ha
          split at ha
          · next heq =>
            obtain rfl := Option.some.inj ha
            exact hid.trans heq.symm
          · exact hkeyed k a ha

/-- The accounts of a store after the deltas of a write. -/
theorem setAccounts_map {after : Accounts}
    (happly : applyDeltas delta inputs (s.lockAccounts (lockOrder inputs)) = some after) (k : String) :
    (LedgerStore.setAccounts s.accounts after.values).get k =
      (s.accounts.get k).map (accountAfter delta inputs) := by
  have hkeyed := applyDeltas_keyed (locked_keyed s _) happly
  have hget := applyDeltas_get (locked_keyed s _) happly k
  rw [lockAccounts_get] at hget
  by_cases hk : ∃ i ∈ inputs, i.accountId = k
  · rw [if_pos (mem_lockOrder.mpr hk)] at hget
    obtain ⟨i, hi, rfl⟩ := hk
    have hsome := Receipts.applyDeltas_exist (Option.isSome_iff_exists.mpr ⟨after, happly⟩) i hi
    rw [lockAccounts_get, if_pos (mem_lockOrder.mpr ⟨i, hi, rfl⟩)] at hsome
    obtain ⟨a, ha⟩ := Option.isSome_iff_exists.mp hsome
    rw [ha, Option.map_some] at hget ⊢
    have hput := Rows.get_puts_of_mem s.accounts (keyed_nodup hkeyed) (Table.mem_values.mpr ⟨_, hget⟩)
    rw [hkeyed _ _ hget] at hput
    exact hput
  · rw [if_neg fun hmem => hk (mem_lockOrder.mp hmem)] at hget
    have hout : ∀ v ∈ after.values, v.id ≠ k := by
      intro v hv he
      obtain ⟨k', hk'⟩ := Table.mem_values.mp hv
      rw [← hkeyed k' v hk', he, hget] at hk'
      cases hk'
    refine (Rows.get_puts_of_ne _ hout).trans ?_
    cases ha : s.accounts.get k with
    | none => rfl
    | some a =>
      have hid : a.id = k := Rows.key_of_get ha
      rw [Option.map_some, accountAfter_untouched fun i hi he => hk ⟨i, hi, he.trans hid⟩]

/-- An account after the deltas of a write, next to the account before. -/
theorem setAccounts_get {after : Accounts} {k : String}
    (happly : applyDeltas delta inputs (s.lockAccounts (lockOrder inputs)) = some after)
    (ha : s.accounts.get k = some a) :
    (LedgerStore.setAccounts s.accounts after.values).get k = some (accountAfter delta inputs a) ∧
      Moved delta inputs a (accountAfter delta inputs a) := by
  have hget := setAccounts_map happly k
  rw [ha, Option.map_some] at hget
  obtain ⟨before, hbefore, hm⟩ := setAccounts_moved happly hget
  cases ha.symm.trans hbefore
  exact ⟨hget, hm⟩

/-- What the resolution of a hold does to one account. -/
structure Released (inputs : List LedgerEntryInput) (commit : Bool) (a b : LedgerAccount) : Prop where
  pending : ∀ direction, counter b .PENDING direction =
    counter a .PENDING direction - inputsOn a.id direction inputs
  posted : ∀ direction, counter b .POSTED direction =
    counter a .POSTED direction + if commit then inputsOn a.id direction inputs else 0
  committed : commit = true → available a ≤ available b
  voided : commit = false → available b = available a + taken a inputs
  untouched : (∀ i ∈ inputs, i.accountId ≠ a.id) → b = a

/-- The resolution of a hold succeeds, and releases every account. -/
structure Releases (s : LedgerStore) (mint : Mint) (hold : String) (options : ResolveOptions)
    (commit : Bool) : Prop where
  succeeds : ∃ r, ((EngineCall.resolvePending mint hold options commit).run s).1 = .ok r
  released : ∀ k a, s.accounts.get k = some a →
    ∃ b, ((EngineCall.resolvePending mint hold options commit).run s).2.accounts.get k = some b ∧
      Released (pendingInputs s hold) commit a b

theorem releases_of_sound (h : Sound s) (mint : Mint) (hpending : holdStatus s hold = some .PENDING)
    (hkey : s.findByIdempotencyKey options.idempotencyKey = none) :
    Releases s mint hold options commit := by
  have hok : ∃ r, ((EngineCall.resolvePending mint hold options commit).run s).1 = .ok r := by
    obtain ⟨pending, es, after, -, -, hrun⟩ :=
      resolve_of_resolvable mint options.type (resolvable_of_sound h hpending hkey)
    rw [run_resolve]
    exact ⟨_, congrArg Prod.fst hrun⟩
  refine ⟨hok, fun k a ha => ?_⟩
  obtain ⟨r, hr⟩ := hok
  have ho := run_outcome s (.resolvePending mint hold options commit)
  rw [hr] at ho
  generalize (EngineCall.run s (.resolvePending mint hold options commit)).2 = s' at ho ⊢
  cases ho with
  | replayed _ existing hused => cases hkey.symm.trans hused
  | resolved _ _ _ _ pending es after _ hget _ hbuilt =>
    have happly := (deltas_of_buildEntries _ _ _ _ _ _ _ _ _ hbuilt).1
    obtain ⟨hb, hm⟩ := setAccounts_get happly ha
    refine ⟨_, hb, fun direction => ?_, fun direction => ?_, fun hcommit => ?_,
      fun hvoid => ?_, fun hout => ?_⟩
    · rw [hm.counters, changeOn_resolveDelta]
      rfl
    · rw [hm.counters, changeOn_resolveDelta]
    · have hraised := inputsOn_nonneg a.id (raising a.normalBalance)
        fun i (hi : i ∈ pendingInputs s hold) => (pendingInputs_filed h hi).1
      rw [resolved_available hm, if_pos hcommit]
      omega
    · rw [resolved_available hm, if_neg (by simp [hvoid])]
    · exact accountAfter_untouched hout

/-- What a hold takes from an account as it is placed. -/
theorem placing_takes {c : EngineCall} {r : PostTransactionResult} {input : PostTransactionInput} {k : String}
    (hc : c = .post mint input) (hphase : input.phase = .PENDING) (hr : (c.run s).1 = .ok r)
    (hnew : r.replayed = false) (ha : s.accounts.get k = some a)
    (hb : (c.run s).2.accounts.get k = some b) :
    available a - available b = taken a (r.entries.map (·.toLedgerEntryInput)) := by
  have ho := run_outcome s c
  rw [hr] at ho
  generalize (EngineCall.run s c).2 = s' at ho hb
  cases ho with
  | replayed => cases hnew
  | posted mint input debits es after hkey hbalanced hbuilt =>
    cases hc
    have happly := (deltas_of_buildEntries _ _ _ _ _ _ _ _ _ hbuilt).1
    have hinputs : es.map (·.toLedgerEntryInput) = input.entries := buildEntries_inputs _ _ _ _ hbuilt
    obtain ⟨hb', hm⟩ := setAccounts_get happly ha
    cases hb.symm.trans hb'
    rw [hphase] at hm ⊢
    rw [hinputs]
    exact placed_available hm
  | resolved => cases hc

/-- The entries of a hold are those it was placed with. -/
theorem pendingInputs_kept {newId : Nat → String} {before after : List Operation} {c : EngineCall}
    {r : PostTransactionResult} (hfresh : FreshAll (newStore newId) (before ++ c.operation :: after))
    (hr : (c.run (ledgerAfter newId before)).1 = .ok r) :
    pendingInputs (ledgerAfter newId (before ++ c.operation :: after)) r.transaction.id =
      r.entries.map (·.toLedgerEntryInput) := by
  obtain ⟨hbefore, hfirst, hafter⟩ := freshAll_append.mp hfresh
  have hearlier := ledgerAfter_indexed newId hbefore
  have ho := run_outcome (ledgerAfter newId before) c
  rw [hr] at ho
  obtain ⟨id, ht, hentries, -⟩ := outcome_stored ho hearlier hfirst
  rw [← EngineCall.perform_operation] at ht hentries
  obtain ⟨t', ht', -, hentries'⟩ :=
    (performAll_indexed (perform_indexed hearlier hfirst).1 hafter).2.transactions
    id r.transaction ht
  have hid : r.transaction.id = id := Rows.key_of_get ht
  have hall : ledgerAfter newId (before ++ c.operation :: after) =
      performAll (c.operation.perform (ledgerAfter newId before)) after := performAll_append _ _ _
  rw [pendingInputs, hall, hid]
  exact congrArg (List.map (·.toLedgerEntryInput)) (hentries'.trans hentries)

/-- No operation removes an account or turns its nature. -/
theorem perform_account {op : Operation} {k : String} (hfresh : op.Fresh s) (ha : s.accounts.get k = some a) :
    ∃ b, (op.perform s).accounts.get k = some b ∧ b.normalBalance = a.normalBalance := by
  have hcall : ∀ c : EngineCall,
      ∃ b, (c.operation.perform s).accounts.get k = some b ∧ b.normalBalance = a.normalBalance := by
    intro c
    have ho := run_outcome s c
    rw [EngineCall.perform_operation]
    generalize (EngineCall.run s c).2 = s', (EngineCall.run s c).1 = r at ho
    cases ho with
    | failed => exact ⟨a, ha, rfl⟩
    | replayed => exact ⟨a, ha, rfl⟩
    | posted mint input debits es after hkey hbalanced hbuilt =>
      obtain ⟨hb, hm⟩ := setAccounts_get (deltas_of_buildEntries _ _ _ _ _ _ _ _ _ hbuilt).1 ha
      exact ⟨_, hb, hm.normalBalance⟩
    | resolved mint id options commit pending es after hkey hget hpending hbuilt =>
      obtain ⟨hb, hm⟩ := setAccounts_get (deltas_of_buildEntries _ _ _ _ _ _ _ _ _ hbuilt).1 ha
      exact ⟨_, hb, hm.normalBalance⟩
  cases op with
  | openCustomerAccounts availableId blockedId customerAccountId =>
    obtain ⟨-, havailable, hblocked⟩ := hfresh
    have hne : k ≠ availableId := by
      rintro rfl
      cases havailable.symm.trans ha
    have hne' : k ≠ blockedId := by
      rintro rfl
      cases hblocked.symm.trans ha
    refine ⟨a, ?_, rfl⟩
    rw [Operation.perform, openCustomerAccounts, createFrom_get_of_ne hne', createFrom_get_of_ne hne, ha]
  | post mint input => exact hcall (.post mint input)
  | commitPending mint id options => exact hcall (.commitPending mint id options)
  | voidPending mint id options => exact hcall (.voidPending mint id options)

theorem performAll_account {ops : List Operation} {k : String} (hfresh : FreshAll s ops)
    (ha : s.accounts.get k = some a) :
    ∃ b, (performAll s ops).accounts.get k = some b ∧ b.normalBalance = a.normalBalance := by
  induction ops generalizing s a with
  | nil => exact ⟨a, ha, rfl⟩
  | cons op ops ih =>
    obtain ⟨b, hb, hnormal⟩ := perform_account hfresh.1 ha
    obtain ⟨c, hc, hnormal'⟩ := ih hfresh.2 hb
    exact ⟨c, hc, hnormal'.trans hnormal⟩

/-- The call that placed the hold, with what each account was before and after it. -/
def PlacedBy (newId : Nat → String) (ops : List Operation) (hold k : String) (a b : LedgerAccount) : Prop :=
  ∃ before placed after, ∃ input : PostTransactionInput, ∃ r : PostTransactionResult,
    ops = before ++ (EngineCall.post placed input).operation :: after ∧ input.phase = .PENDING ∧
    ((EngineCall.post placed input).run (ledgerAfter newId before)).1 = .ok r ∧ r.replayed = false ∧
    r.transaction.id = hold ∧ (ledgerAfter newId before).accounts.get k = some a ∧
    ((EngineCall.post placed input).run (ledgerAfter newId before)).2.accounts.get k = some b

/-- A hold that is still pending can be resolved under any unused key, whatever
else is held. Voided, it gives back to each account what it took from it when it
was placed. -/
theorem resolving_never_short (newId : Nat → String)
    (hids : ((List.range singletonAccounts.length).map newId).Nodup) (ops : List Operation)
    (hfresh : FreshAll (newStore newId) ops) (mint : Mint) (hold : String) (options : ResolveOptions)
    (hpending : holdStatus (ledgerAfter newId ops) hold = some .PENDING)
    (hkey : (ledgerAfter newId ops).findByIdempotencyKey options.idempotencyKey = none) :
    (∀ commit, Releases (ledgerAfter newId ops) mint hold options commit) ∧
      ∀ k a b, PlacedBy newId ops hold k a b →
        ∃ c d, (ledgerAfter newId ops).accounts.get k = some c ∧
          ((EngineCall.voidPending mint hold options).run (ledgerAfter newId ops)).2.accounts.get k = some d ∧
          available d - available c = available a - available b := by
  have hreleases : ∀ commit, Releases (ledgerAfter newId ops) mint hold options commit := fun commit =>
    releases_of_sound (performAll_sound (newStore_sound hids) hfresh) mint hpending hkey
  refine ⟨hreleases, ?_⟩
  rintro k a b ⟨before, placed, after, input, r, rfl, hphase, hr, hnew, rfl, ha, hb⟩
  obtain ⟨hbefore, hrest⟩ := freshAll_append.mp hfresh
  obtain ⟨c, hc, hnormal⟩ := performAll_account hrest ha
  have hc' : (ledgerAfter newId (before ++ (EngineCall.post placed input).operation :: after)).accounts.get
    k =
      some c := by
    rw [ledgerAfter, performAll_append]
    exact hc
  obtain ⟨d, hd, hreleased⟩ := (hreleases false).released k c hc'
  have hid : a.id = k := Rows.key_of_get ha
  have hid' : c.id = k := Rows.key_of_get hc'
  have htaken : ∀ inputs, taken c inputs = taken a inputs := by
    intro inputs
    rw [taken, taken, hnormal, hid, hid']
  have hvoided := hreleased.voided rfl
  have hplaced := placing_takes rfl hphase hr hnew ha hb
  rw [htaken, pendingInputs_kept hfresh hr, ← hplaced] at hvoided
  exact ⟨c, d, hc', hd, by omega⟩

/-- Of two holds on one account the second is still pending, and can be resolved. -/
theorem resolving_never_short_second :
    FreshAll (newStore sampleId) (sampleOperations.take 6) ∧
      holdStatus (ledgerAfter sampleId (sampleOperations.take 6)) "t4" = some .PENDING ∧
      ∀ commit, Releases (ledgerAfter sampleId (sampleOperations.take 6)) (sampleMint "t5") "t4"
        ⟨"late", none⟩ commit := by
  have hfresh : FreshAll (newStore sampleId) (sampleOperations.take 6) := by decide
  have hpending : holdStatus (ledgerAfter sampleId (sampleOperations.take 6)) "t4" = some .PENDING := by
    decide
  refine ⟨hfresh, hpending, ?_⟩
  exact (resolving_never_short sampleId (by decide) _ hfresh (sampleMint "t5") "t4" ⟨"late", none⟩
    hpending rfl).1

end BaasConnector.Ledger.Availability
