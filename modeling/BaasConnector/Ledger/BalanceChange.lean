import BaasConnector.Ledger.Movements

namespace BaasConnector.Ledger.BalanceChange

open BaasConnector.Lib.Keyed BaasConnector.Ledger.Types BaasConnector.Ledger.Engine
open BaasConnector.Ledger.MemoryStore BaasConnector.Ledger.Outcomes BaasConnector.Ledger.Shadow
open BaasConnector.Ledger.Holds BaasConnector.Ledger.Adjustments BaasConnector.Ledger.Receipts
open BaasConnector.Ledger.ChartOfAccounts BaasConnector.Ledger.Invariants BaasConnector.Ledger.Counters
open BaasConnector.Ledger.Books BaasConnector.Ledger.Reachable BaasConnector.Ledger.Calls
open BaasConnector.Ledger.Consistency BaasConnector.Ledger.Availability BaasConnector.Ledger.Movements

def postedBalance (s : LedgerStore) (accountId : String) : Int :=
  ((s.accounts.get accountId).map fun account => (computeBalances account).posted).getD 0

/-- The transaction that an operation answers with, new or replayed. -/
def answered (s : LedgerStore) : Operation → Option LedgerTransaction
  | .openCustomerAccounts .. => none
  | .post mint input => ((EngineCall.post mint input).run s).1.toOption.map (·.transaction)
  | .commitPending mint id options =>
    ((EngineCall.commitPending mint id options).run s).1.toOption.map (·.transaction)
  | .voidPending mint id options =>
    ((EngineCall.voidPending mint id options).run s).1.toOption.map (·.transaction)

def Effective (start finish : Int) (t : LedgerTransaction) : Prop :=
  start ≤ t.effectiveAt ∧ t.effectiveAt ≤ finish

instance (start finish : Int) (t : LedgerTransaction) : Decidable (Effective start finish t) :=
  inferInstanceAs (Decidable (_ ∧ _))

/-- What the operations whose transactions are effective in the window change in
the posted balance of an account. -/
def balanceChange (accountId : String) (start finish : Int) (s : LedgerStore) : List Operation → Int
  | [] => 0
  | op :: ops =>
    (if ∃ t ∈ answered s op, Effective start finish t then
      postedBalance (op.perform s) accountId - postedBalance s accountId else 0) +
      balanceChange accountId start finish (op.perform s) ops

variable {s : LedgerStore} {accountId : String} {start finish : Int} {inputs : List LedgerEntryInput}

theorem movedOn_eq (accountId : String) (inputs : List LedgerEntryInput) :
    movedOn accountId inputs = inputsOn accountId .CREDIT inputs - inputsOn accountId .DEBIT inputs := by
  unfold movedOn inputsOn
  induction inputs.filter (·.accountId = accountId) with
  | nil => rfl
  | cons i own ih =>
    rw [List.map_cons, List.sum_cons, sumDirection_cons, sumDirection_cons, ih]
    cases hd : i.direction <;> simp <;> omega

theorem buildEntries_effective (mint : Mint) (transaction : LedgerTransaction) (phase : EntryPhase)
    (delta : LedgerEntryInput → CounterDelta) {index : Nat} {accounts after : Accounts}
    {es : List LedgerEntry}
    (h : buildEntries mint transaction phase delta index inputs accounts = .ok (es, after)) :
    ∀ e ∈ es, e.effectiveAt = transaction.effectiveAt :=
  buildEntries_forall mint transaction phase delta (fun _ _ _ => rfl) h

variable {t : LedgerTransaction} {es : List LedgerEntry} {phase : EntryPhase}

/-- The entries of one transaction move what they post, if it is effective in the window. -/
theorem windowed_entries (hinputs : es.map (·.toLedgerEntryInput) = inputs)
    (hphase : ∀ e ∈ es, e.phase = phase)
    (heffective : ∀ e ∈ es, e.effectiveAt = t.effectiveAt) :
    windowed accountId start finish es =
      if phase = .POSTED ∧ Effective start finish t then movedOn accountId inputs else 0 := by
  subst hinputs
  unfold windowed movedOn
  by_cases hcounts : phase = .POSTED ∧ Effective start finish t
  · rw [if_pos hcounts]
    have hfilter : es.filter (InWindow accountId start finish) = es.filter (·.accountId = accountId) := by
      refine List.filter_congr fun e he => ?_
      simp [InWindow, hphase e he, heffective e he, hcounts.1, hcounts.2.1, hcounts.2.2]
    rw [hfilter, List.filter_map, List.map_map]
    rfl
  · rw [if_neg hcounts]
    have hnil : es.filter (InWindow accountId start finish) = [] := by
      apply List.filter_eq_nil_iff.mpr
      intro e he
      simp only [decide_eq_true_eq]
      rintro ⟨-, hposted, hstart, hfinish⟩
      rw [heffective e he] at hstart hfinish
      exact hcounts ⟨(hphase e he).symm.trans hposted, hstart, hfinish⟩
    rw [hnil]
    rfl

/-- What a write changes in a posted balance is what its entries post. -/
theorem postedBalance_write (phase : EntryPhase) (t : LedgerTransaction) (es : List LedgerEntry)
    {delta : LedgerEntryInput → CounterDelta} {after : Accounts}
    (happly : applyDeltas delta inputs (s.lockAccounts (lockOrder inputs)) = some after)
    (hcredit : ∀ a, s.accounts.get accountId = some a → a.normalBalance = .CREDIT)
    (hposted : ∀ direction, changeOn delta accountId .POSTED direction inputs =
      if phase = .POSTED then inputsOn accountId direction inputs else 0) :
    postedBalance (s.persist t es after.values) accountId - postedBalance s accountId =
      if phase = .POSTED then movedOn accountId inputs else 0 := by
  have hmap := setAccounts_map happly accountId
  have hget : (s.persist t es after.values).accounts.get accountId =
      (s.accounts.get accountId).map (accountAfter delta inputs) := hmap
  unfold postedBalance
  rw [hget]
  cases ha : s.accounts.get accountId with
  | none =>
    have hnil : inputs.filter (·.accountId = accountId) = [] := by
      apply List.filter_eq_nil_iff.mpr
      intro i hi
      have hsome := applyDeltas_exist (Option.isSome_iff_exists.mpr ⟨after, happly⟩) i hi
      rw [lockAccounts_get, if_pos (mem_lockOrder.mpr ⟨i, hi, rfl⟩)] at hsome
      simp only [decide_eq_true_eq]
      intro he
      rw [he, ha] at hsome
      cases hsome
    simp [movedOn, hnil]
  | some a =>
    obtain ⟨-, hm⟩ := setAccounts_get happly ha
    have hid : a.id = accountId := Rows.key_of_get ha
    have hnormal := hcredit a ha
    have hnormal' := hm.normalBalance.trans hnormal
    have hdebits := hm.counters .POSTED .DEBIT
    have hcredits := hm.counters .POSTED .CREDIT
    rw [hid, hposted] at hdebits hcredits
    have hbalance : ∀ b : LedgerAccount, b.normalBalance = .CREDIT →
        (computeBalances b).posted = counter b .POSTED .CREDIT - counter b .POSTED .DEBIT := by
      intro b hb
      rw [computeBalances, hb]
      rfl
    rw [Option.map_some, Option.map_some, Option.getD_some, Option.map_some, Option.getD_some,
      hbalance _ hnormal', hbalance _ hnormal, hdebits, hcredits, movedOn_eq]
    split <;> omega

theorem moved_write (accountId : String) (start finish : Int) (after : Accounts)
    (hfree : s.entries.get t.id = none) (hne : es ≠ []) :
    moved (s.persist t es after.values) accountId start finish =
      moved s accountId start finish + windowed accountId start finish es := by
  have hset : (s.persist t es after.values).entries = s.entries.set t.id es := by
    simp [LedgerStore.persist, hne]
  rw [moved, moved, hset]
  exact Table.total_set_new es hfree

/-- The movements of the window grow by what the call changes in the balance, if
its transaction is effective in the window. -/
theorem call_moves {c : EngineCall} {r : Except LedgerThrown PostTransactionResult} {s' : LedgerStore}
    (ho : Outcome s c r s') (h : Sound s) (hindexed : Indexed s) (hfresh : c.Fresh s)
    (hcredit : ∀ a, s.accounts.get accountId = some a → a.normalBalance = .CREDIT) :
    moved s' accountId start finish = moved s accountId start finish +
      if ∃ t ∈ r.toOption.map (·.transaction), Effective start finish t then
        postedBalance s' accountId - postedBalance s accountId else 0 := by
  cases ho with
  | failed => simp [Except.toOption]
  | replayed => simp
  | posted mint input debits es after hkey hbalanced hbuilt =>
    have happly := (deltas_of_buildEntries _ _ _ _ _ _ _ _ _ hbuilt).1
    have hbalance := postedBalance_write input.phase.entryPhase (postedTransaction mint input debits) es
      happly hcredit fun direction => by
        rw [changeOn_deltaFor]
        cases input.phase <;> simp [PostPhase.entryPhase]
    rw [moved_write accountId start finish after (h.entries_none (hfresh hkey).2)
      (posted_entries_ne hbalanced hbuilt), hbalance,
      windowed_entries (t := postedTransaction mint input debits) (buildEntries_inputs _ _ _ _ hbuilt)
        (buildEntries_phase _ _ _ _ hbuilt) (buildEntries_effective _ _ _ _ hbuilt)]
    congr 1
    by_cases heffective : Effective start finish (postedTransaction mint input debits)
    · simp [Except.toOption, heffective]
    · simp [Except.toOption, heffective]
  | resolved mint id options commit pending es after hkey hget hpending hbuilt =>
    have happly := (deltas_of_buildEntries _ _ _ _ _ _ _ _ _ hbuilt).1
    have hbalance := postedBalance_write (resolvePhase commit) (resolution mint id options commit pending) es
      happly hcredit fun direction => by
        rw [changeOn_resolveDelta]
        cases commit <;> simp [resolvePhase]
    have hmoved := moved_write accountId start finish
      (t := resolution mint id options commit pending) after (h.entries_none hfresh.resolve)
      (resolved_entries_ne hindexed hget hbuilt)
    change moved (s.persist (resolution mint id options commit pending) es after.values)
      accountId start finish =
      moved s accountId start finish + if _ then
        postedBalance (s.persist (resolution mint id options commit pending) es after.values) accountId -
          postedBalance s accountId else 0
    rw [hmoved, hbalance,
      windowed_entries (t := resolution mint id options commit pending) (buildEntries_inputs _ _ _ _ hbuilt)
        (buildEntries_phase _ _ _ _ hbuilt) (buildEntries_effective _ _ _ _ hbuilt)]
    congr 1
    by_cases heffective : Effective start finish (resolution mint id options commit pending)
    · simp [Except.toOption, heffective]
    · simp [Except.toOption, heffective]

variable {op : Operation} {ops : List Operation}

theorem perform_moves (h : Sound s) (hindexed : Indexed s) (hfresh : op.Fresh s)
    (hcredit : ∀ a, s.accounts.get accountId = some a → a.normalBalance = .CREDIT) :
    moved (op.perform s) accountId start finish = moved s accountId start finish +
      if ∃ t ∈ answered s op, Effective start finish t then
        postedBalance (op.perform s) accountId - postedBalance s accountId else 0 := by
  cases op with
  | openCustomerAccounts availableId blockedId customerAccountId =>
    have hentries := (openCustomerAccounts_eq s availableId blockedId customerAccountId).1
    rw [if_neg (by simp [answered]), Int.add_zero, Operation.perform, moved, hentries, moved]
  | post mint input =>
    exact call_moves (run_outcome s (.post mint input)) h hindexed hfresh hcredit
  | commitPending mint id options =>
    exact call_moves (run_outcome s (.commitPending mint id options)) h hindexed hfresh hcredit
  | voidPending mint id options =>
    exact call_moves (run_outcome s (.voidPending mint id options)) h hindexed hfresh hcredit

theorem performAll_moves (start finish : Int) (h : Sound s) (hindexed : Indexed s) (hfresh : FreshAll s ops)
    (hcredit : ∀ a, (performAll s ops).accounts.get accountId = some a → a.normalBalance = .CREDIT) :
    moved (performAll s ops) accountId start finish =
      moved s accountId start finish + balanceChange accountId start finish s ops := by
  induction ops generalizing s with
  | nil => simp [performAll, balanceChange]
  | cons op ops ih =>
    have hearlier : ∀ a, s.accounts.get accountId = some a → a.normalBalance = .CREDIT := by
      intro a ha
      obtain ⟨b, hb, hnormal⟩ := performAll_account hfresh ha
      rw [← hnormal]
      exact hcredit b hb
    rw [performAll, ih (perform_sound h hfresh.1) (perform_indexed hindexed hfresh.1).1 hfresh.2 hcredit,
      perform_moves h hindexed hfresh.1 hearlier, balanceChange]
    omega

/-- The operation places a hold or voids one. -/
def Moveless : Operation → Prop
  | .post _ input => input.phase = .PENDING
  | .voidPending .. => True
  | _ => False

theorem moveless_posted (hop : Moveless op)
    (hcredit : ∀ a, s.accounts.get accountId = some a → a.normalBalance = .CREDIT) :
    postedBalance (op.perform s) accountId = postedBalance s accountId := by
  cases op with
  | openCustomerAccounts => cases hop
  | commitPending => cases hop
  | post mint input =>
    change postedBalance ((EngineCall.post mint input).run s).2 accountId = _
    have ho := run_outcome s (.post mint input)
    generalize (EngineCall.run s (.post mint input)).1 = r,
      (EngineCall.run s (.post mint input)).2 = s' at ho ⊢
    cases ho with
    | failed => rfl
    | replayed => rfl
    | posted _ _ debits es after _ _ hbuilt =>
      have hbalance := postedBalance_write .PENDING (postedTransaction mint input debits) es
        (deltas_of_buildEntries _ _ _ _ _ _ _ _ _ hbuilt).1 hcredit fun direction => by
          rw [changeOn_deltaFor, hop]
          simp
      rw [if_neg (by simp)] at hbalance
      omega
  | voidPending mint id options =>
    change postedBalance ((EngineCall.voidPending mint id options).run s).2 accountId = _
    have ho := run_outcome s (.voidPending mint id options)
    generalize (EngineCall.run s (.voidPending mint id options)).1 = r,
      (EngineCall.run s (.voidPending mint id options)).2 = s' at ho ⊢
    cases ho with
    | failed => rfl
    | replayed => rfl
    | resolved _ _ _ _ pending es after _ _ _ hbuilt =>
      have hbalance := postedBalance_write .VOID (resolution mint id options false pending) es
        (deltas_of_buildEntries _ _ _ _ _ _ _ _ _ hbuilt).1 hcredit fun direction => by
          rw [changeOn_resolveDelta]
          simp
      rw [if_neg (by simp)] at hbalance
      change postedBalance (s.persist (resolution mint id options false pending) es after.values)
        accountId = _
      omega

/-- The codes of the bank's own accounts are short, and every other account owes
its balance to a customer. -/
def Charted (s : LedgerStore) : Prop :=
  ∀ k a, s.accounts.get k = some a → 4 < a.code.length → a.normalBalance = .CREDIT

theorem accountAfter_code (delta : LedgerEntryInput → CounterDelta) (inputs : List LedgerEntryInput)
    (a : LedgerAccount) : (accountAfter delta inputs a).code = a.code := by
  unfold accountAfter
  induction inputs.filter (·.accountId = a.id) generalizing a with
  | nil => rfl
  | cons i own ih => exact ih (applyDelta a (delta i))

theorem Charted.write (t : LedgerTransaction) (es : List LedgerEntry)
    {delta : LedgerEntryInput → CounterDelta} {after : Accounts} (h : Charted s)
    (happly : applyDeltas delta inputs (s.lockAccounts (lockOrder inputs)) = some after) :
    Charted (s.persist t es after.values) := by
  intro k b hb hcode
  have hmap := setAccounts_map happly k
  rw [show (LedgerStore.setAccounts s.accounts after.values).get k = some b from hb] at hmap
  obtain ⟨a, ha, rfl⟩ := Option.map_eq_some_iff.mp hmap.symm
  rw [accountAfter_code] at hcode
  exact (setAccounts_get happly ha).2.normalBalance.trans (h k a ha hcode)

theorem Charted.createFrom {id : String} {template : AccountTemplate} (h : Charted s)
    (hfree : s.accounts.get id = none)
    (htemplate : 4 < template.code.length → normalBalanceFor template.type = .CREDIT) :
    Charted (createFrom s id template) := by
  intro k a ha hcode
  by_cases hk : k = id
  · subst hk
    obtain hnone | hsome := createFrom_get_self (t := template) hfree
    · cases hnone.symm.trans ha
    · cases hsome.symm.trans ha
      exact htemplate hcode
  · rw [createFrom_get_of_ne hk] at ha
    exact h k a ha hcode

theorem Charted.perform (h : Charted s) (hfresh : op.Fresh s) : Charted (op.perform s) := by
  have hcall : ∀ c : EngineCall, Charted (c.operation.perform s) := by
    intro c
    have ho := run_outcome s c
    rw [EngineCall.perform_operation]
    generalize (EngineCall.run s c).1 = r, (EngineCall.run s c).2 = s' at ho ⊢
    cases ho with
    | failed => exact h
    | replayed => exact h
    | posted mint input debits es after _ _ hbuilt =>
      exact h.write (postedTransaction mint input debits) es
        (deltas_of_buildEntries _ _ _ _ _ _ _ _ _ hbuilt).1
    | resolved mint id options commit pending es after _ _ _ hbuilt =>
      exact h.write (resolution mint id options commit pending) es
        (deltas_of_buildEntries _ _ _ _ _ _ _ _ _ hbuilt).1
  cases op with
  | openCustomerAccounts availableId blockedId customerAccountId =>
    obtain ⟨hne, havailable, hblocked⟩ := hfresh
    apply Charted.createFrom (h.createFrom havailable fun _ => rfl)
    · rw [createFrom_get_of_ne (Ne.symm hne)]
      exact hblocked
    · exact fun _ => rfl
  | post mint input => exact hcall (.post mint input)
  | commitPending mint id options => exact hcall (.commitPending mint id options)
  | voidPending mint id options => exact hcall (.voidPending mint id options)

theorem Charted.performAll (h : Charted s) (hfresh : FreshAll s ops) : Charted (performAll s ops) := by
  induction ops generalizing s with
  | nil => exact h
  | cons op ops ih => exact ih (h.perform hfresh.1) hfresh.2

theorem Charted.createAll {seeds : List (String × AccountTemplate)} (h : Charted s)
    (hids : (seeds.map Prod.fst).Nodup) (hfree : ∀ seed ∈ seeds, s.accounts.get seed.1 = none)
    (hshort : ∀ seed ∈ seeds, seed.2.code.length = 4) : Charted (createAll s seeds) := by
  induction seeds generalizing s with
  | nil => exact h
  | cons seed seeds ih =>
    rw [List.map_cons, List.nodup_cons] at hids
    apply ih (h.createFrom (hfree seed List.mem_cons_self) fun hlong => ?_) hids.2
    · intro other hother
      have hne : other.1 ≠ seed.1 := fun he => hids.1 (List.mem_map.mpr ⟨other, hother, he⟩)
      rw [createFrom_get_of_ne hne]
      exact hfree other (List.mem_cons_of_mem _ hother)
    · exact fun other hother => hshort other (List.mem_cons_of_mem _ hother)
    · rw [hshort seed List.mem_cons_self] at hlong
      exact absurd hlong (by decide)

theorem newStore_charted {newId : Nat → String}
    (hids : ((List.range singletonAccounts.length).map newId).Nodup) : Charted (newStore newId) := by
  apply Charted.createAll
  · intro k a ha
    cases ha
  · rw [List.map_fst_zip (by simp)]
    exact hids
  · intro seed _
    rfl
  · intro seed hseed
    have hmem := (List.of_mem_zip hseed).2
    have hall : ∀ template ∈ singletonAccounts, template.code.length = 4 := by decide
    exact hall seed.2 hmem

/-- The account holds what is available to a customer, or what is blocked. -/
def CustomerAccount (s : LedgerStore) (accountId : String) : Prop :=
  ∃ customerAccountId, s.accountIdByCode (customerAvailableCode customerAccountId) = some accountId ∨
    s.accountIdByCode (customerBlockedCode customerAccountId) = some accountId

theorem customer_credit (h : Charted s) (hcustomer : CustomerAccount s accountId) {a : LedgerAccount}
    (ha : s.accounts.get accountId = some a) : a.normalBalance = .CREDIT := by
  have hcode : ∀ {code : String}, 4 < code.length → s.accountIdByCode code = some accountId →
      a.normalBalance = .CREDIT := by
    intro code hlong hfound
    obtain ⟨found, hsearch, hid⟩ := Option.map_eq_some_iff.mp hfound
    obtain ⟨hmatch, hget⟩ := Rows.search_some hsearch
    rw [hid, ha, Option.some.injEq] at hget
    subst hget
    exact h _ _ ha (by rw [of_decide_eq_true hmatch]; exact hlong)
  obtain ⟨customerAccountId, havailable | hblocked⟩ := hcustomer
  · have hprefix : "2000.".length = 5 := by decide
    refine hcode ?_ havailable
    rw [customerAvailableCode, String.length_append, hprefix]
    omega
  · have hprefix : "2100.".length = 5 := by decide
    refine hcode ?_ hblocked
    rw [customerBlockedCode, String.length_append, hprefix]
    omega

/-- The movements of a customer account in a window add up to what the
transactions effective in the window have changed in its posted balance; placing
and voiding holds has changed nothing. -/
theorem movements_explain_balance (newId : Nat → String)
    (hids : ((List.range singletonAccounts.length).map newId).Nodup) (ops : List Operation)
    (hfresh : FreshAll (newStore newId) ops) (localeCompare : String → String → Int) (accountId : String)
    (hcustomer : CustomerAccount (ledgerAfter newId ops) accountId) (start finish : Int) :
    ((movements localeCompare (ledgerAfter newId ops) accountId start finish).map (·.signedCents)).sum =
      balanceChange accountId start finish (newStore newId) ops ∧
    ∀ before op after, ops = before ++ op :: after → Moveless op →
      postedBalance (op.perform (ledgerAfter newId before)) accountId =
        postedBalance (ledgerAfter newId before) accountId := by
  have hsound := newStore_sound hids
  have hcharted := (newStore_charted hids).performAll hfresh
  have hcredit : ∀ a, (ledgerAfter newId ops).accounts.get accountId = some a → a.normalBalance = .CREDIT :=
    fun a ha => customer_credit hcharted hcustomer ha
  constructor
  · have hstart : moved (newStore newId) accountId start finish = 0 := by
      have hentries := (createAll_eq .empty
        (((List.range singletonAccounts.length).map newId).zip singletonAccounts)).1
      rw [moved, newStore, hentries]
      rfl
    have hall := performAll_moves start finish hsound (newStore_indexed newId) hfresh hcredit
    rw [hstart, Int.zero_add] at hall
    exact (movements_sum (performAll_sound hsound hfresh)).trans hall
  · rintro before op after rfl hop
    obtain ⟨hbefore, hrest⟩ := freshAll_append.mp hfresh
    refine moveless_posted hop fun a ha => ?_
    obtain ⟨b, hb, hnormal⟩ := performAll_account hrest ha
    rw [← hnormal]
    refine hcredit b ?_
    rw [ledgerAfter, performAll_append]
    exact hb

/-- The funding and the commit of the sample operations, which also void a hold. -/
theorem movements_explain_balance_sample :
    FreshAll (newStore sampleId) sampleOperations ∧
      ((movements (fun _ _ => 0) (ledgerAfter sampleId sampleOperations) "c0" 0 0).map
        (·.signedCents)).sum = 40 := by
  have hfresh : FreshAll (newStore sampleId) sampleOperations := by decide
  have hexplained := (movements_explain_balance sampleId (by decide) sampleOperations hfresh
    (fun _ _ => 0) "c0" ⟨"acc", .inl (by decide)⟩ 0 0).1
  refine ⟨hfresh, hexplained.trans ?_⟩
  decide

end BaasConnector.Ledger.BalanceChange
