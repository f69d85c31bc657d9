import BaasConnector.Ledger.Placement
import BaasConnector.Lib.Totals

namespace BaasConnector.Ledger.Receipts

open BaasConnector.Lib.Keyed BaasConnector.Ledger.Types BaasConnector.Taxonomy.Errors
open BaasConnector.Ledger.Engine BaasConnector.Ledger.MemoryStore BaasConnector.Ledger.Outcomes
open BaasConnector.Ledger.Shadow BaasConnector.Ledger.Holds BaasConnector.Ledger.Adjustments
open BaasConnector.Ledger.Placement

/-- What the posted entries credit to one account. -/
def creditedOn (accountId : String) (entries : List LedgerEntry) : Int :=
  ((entries.filter fun e => e.accountId = accountId ∧ e.direction = .CREDIT ∧ e.phase = .POSTED).map
    (·.amountCents)).sum

def receiptOn (s : LedgerStore) (accountId : String) (t : LedgerTransaction) : Int :=
  if t.type = .PIX_IN_RECEIVE then creditedOn accountId (s.entriesOf t.id) else 0

/-- The posted credit of an account that inbound payments account for. -/
def receivedCredit (s : LedgerStore) (accountId : String) : Int :=
  s.transactions.total (receiptOn s accountId)

def creditEntries (externalId availableId : String) (amountCents : Int) : List LedgerEntryInput :=
  [⟨externalId, .DEBIT, amountCents⟩, ⟨availableId, .CREDIT, amountCents⟩]

/-- Both accounts of a credit are there, and neither balance is in the way. -/
def Postable (s : LedgerStore) (availableId : String) (amountCents : Int) : Prop :=
  ∃ externalId ∈ s.accountIdByCode externalWorldCode,
    (applyDeltas (deltaFor .POSTED) (creditEntries externalId availableId amountCents)
      (s.lockAccounts (lockOrder (creditEntries externalId availableId amountCents)))).isSome

instance (s : LedgerStore) (availableId : String) (amountCents : Int) :
    Decidable (Postable s availableId amountCents) := by
  unfold Postable
  infer_instance

variable {s : LedgerStore} {mint : Mint} {key availableId : String} {amountCents : Int}
  {externalRef : Option String}

/-- What holds of every entry as it is made holds of the entries of a list. -/
theorem buildEntries_forall (mint : Mint) (transaction : LedgerTransaction) (phase : EntryPhase)
    (delta : LedgerEntryInput → CounterDelta) {P : LedgerEntry → Prop}
    (hmade : ∀ index input after, P (entryOf mint transaction phase index input after)) {index : Nat}
    {inputs : List LedgerEntryInput} {accounts after : Accounts} {entries : List LedgerEntry}
    (h : buildEntries mint transaction phase delta index inputs accounts = .ok (entries, after)) :
    ∀ entry ∈ entries, P entry := by
  induction inputs generalizing index accounts entries with
  | nil =>
    simp only [buildEntries, Except.ok.injEq, Prod.mk.injEq] at h
    rw [← h.1]
    simp
  | cons input inputs ih =>
    simp only [buildEntries] at h
    split at h
    · cases h
    · split at h
      · cases h
      · split at h
        · cases h
        · next hrest =>
          simp only [Except.ok.injEq, Prod.mk.injEq] at h
          rw [← h.1]
          intro entry he
          obtain rfl | he := List.mem_cons.mp he
          · exact hmade index input _
          · exact ih (by rw [hrest, h.2]) entry he

theorem buildEntries_phase (mint : Mint) (transaction : LedgerTransaction) (phase : EntryPhase)
    (delta : LedgerEntryInput → CounterDelta) {index : Nat} {inputs : List LedgerEntryInput}
    {accounts after : Accounts} {entries : List LedgerEntry}
    (h : buildEntries mint transaction phase delta index inputs accounts = .ok (entries, after)) :
    ∀ entry ∈ entries, entry.phase = phase :=
  buildEntries_forall mint transaction phase delta (fun _ _ _ => rfl) h

theorem buildEntries_owned (mint : Mint) (transaction : LedgerTransaction) (phase : EntryPhase)
    (delta : LedgerEntryInput → CounterDelta) {index : Nat} {inputs : List LedgerEntryInput}
    {accounts after : Accounts} {entries : List LedgerEntry}
    (h : buildEntries mint transaction phase delta index inputs accounts = .ok (entries, after)) :
    ∀ entry ∈ entries, entry.transactionId = transaction.id :=
  buildEntries_forall mint transaction phase delta (fun _ _ _ => rfl) h

theorem applyDeltas_exist {delta : LedgerEntryInput → CounterDelta} {inputs : List LedgerEntryInput}
    {accounts : Accounts} (h : (applyDeltas delta inputs accounts).isSome) :
    ∀ input ∈ inputs, (accounts.get input.accountId).isSome := by
  induction inputs generalizing accounts with
  | nil => simp
  | cons input inputs ih =>
    rw [applyDeltas] at h
    cases hb : accounts.get input.accountId with
    | none => simp [hb] at h
    | some before =>
      simp only [hb] at h
      split at h
      · cases h
      · intro other ho
        obtain rfl | ho := List.mem_cons.mp ho
        · rw [hb, Option.isSome_some]
        · have hg := ih h other ho
          by_cases he : other.accountId = input.accountId
          · rw [he, hb, Option.isSome_some]
          · rwa [Table.get_set_ne _ _ he] at hg

theorem post_new (mint : Mint) (input : PostTransactionInput)
    (hk : s.findByIdempotencyKey input.idempotencyKey = none) :
    (∃ e, run (post mint input) s = (.error e, s)) ∨
    ∃ debits entries accounts, assertBalanced input.entries = .ok debits ∧
      entries.map (·.toLedgerEntryInput) = input.entries ∧
      (∀ entry ∈ entries, entry.phase = input.phase.entryPhase) ∧
      run (post mint input) s = (.ok ⟨postedTransaction mint input debits, entries, false⟩,
        s.persist (postedTransaction mint input debits) entries accounts) := by
  unfold run
  rw [post_run, hk]
  cases hb : assertBalanced input.entries with
  | error e => exact .inl ⟨_, rfl⟩
  | ok debits =>
    dsimp only
    cases assertAccountsExist input.entries (s.lockAccounts (lockOrder input.entries)) with
    | error e => exact .inl ⟨_, rfl⟩
    | ok _ =>
      dsimp only
      cases hp : postEntries mint input debits s with
      | error e => exact .inl ⟨_, rfl⟩
      | ok built =>
        exact .inr ⟨debits, built.1, _, rfl, buildEntries_inputs _ _ _ _ hp,
          buildEntries_phase _ _ _ _ hp, rfl⟩

/-- A posting that its deltas allow goes through. -/
theorem post_accepted (input : PostTransactionInput) {debits : Int}
    (hk : s.findByIdempotencyKey input.idempotencyKey = none)
    (hb : assertBalanced input.entries = .ok debits)
    (hd : (applyDeltas (deltaFor input.phase) input.entries
      (s.lockAccounts (lockOrder input.entries))).isSome) :
    ∃ posted, (run (post mint input) s).1 = .ok posted := by
  have hexist : assertAccountsExist input.entries (s.lockAccounts (lockOrder input.entries)) =
      .ok () := by
    have hnone : input.entries.find? (fun entry =>
        ((s.lockAccounts (lockOrder input.entries)).get entry.accountId).isNone) = none := by
      refine List.find?_eq_none.mpr fun entry he => ?_
      simpa [Option.isSome_iff_ne_none] using applyDeltas_exist hd entry he
    rw [assertAccountsExist, hnone]
  obtain ⟨after, ha⟩ := Option.isSome_iff_exists.mp hd
  obtain ⟨entries, he⟩ := buildEntries_of_deltas mint (postedTransaction mint input debits)
    input.phase.entryPhase _ 0 _ _ _ ha
  unfold run
  rw [post_run, hk, hb]
  simp only [hexist, postEntries, he]
  exact ⟨_, rfl⟩

theorem creditedOn_of_inputs {entries : List LedgerEntry} {externalId : String}
    (hinputs : entries.map (·.toLedgerEntryInput) = creditEntries externalId availableId amountCents)
    (hphase : ∀ entry ∈ entries, entry.phase = .POSTED) (accountId : String) :
    creditedOn accountId entries = if accountId = availableId then amountCents else 0 := by
  obtain ⟨debit, rest, rfl, hdebit, hrest⟩ := List.map_eq_cons_iff.mp hinputs
  obtain ⟨credit, tail, rfl, hcredit, htail⟩ := List.map_eq_cons_iff.mp hrest
  rw [List.map_eq_nil_iff] at htail
  subst htail
  have hp := hphase credit (by simp)
  have hd : debit.direction = .DEBIT := congrArg LedgerEntryInput.direction hdebit
  have hc : credit.direction = .CREDIT := congrArg LedgerEntryInput.direction hcredit
  have ha : credit.accountId = availableId := congrArg LedgerEntryInput.accountId hcredit
  have hm : credit.amountCents = amountCents := congrArg LedgerEntryInput.amountCents hcredit
  by_cases hq : accountId = availableId
  · simp [creditedOn, hd, hc, hp, ha, hm, hq]
  · have hq' : availableId ≠ accountId := fun he => hq he.symm
    simp [creditedOn, hd, ha, hq, hq']

/-- What a credit under an unused key does. -/
theorem creditIn_outcomes (mint : Mint) (availableId : String) (amountCents : Int)
    (externalRef : Option String) (hfree : s.byIdempotencyKey.get key = none) :
    (∃ e, (LedgerCommand.creditIn availableId amountCents key externalRef).perform mint s =
      (.error e, s)) ∨
    ∃ posted accounts, 0 < amountCents ∧
      (LedgerCommand.creditIn availableId amountCents key externalRef).perform mint s =
        (.ok posted, s.persist posted.transaction posted.entries accounts) ∧
      posted.transaction.id = mint.transactionId ∧
      posted.transaction.type = .PIX_IN_RECEIVE ∧ posted.transaction.status = .POSTED ∧
      posted.transaction.amountCents = amountCents ∧
      posted.transaction.idempotencyKey = key ∧ posted.entries ≠ [] ∧
      ∀ accountId, creditedOn accountId posted.entries =
        if accountId = availableId then amountCents else 0 := by
  unfold LedgerCommand.perform withExternal
  cases s.accountIdByCode externalWorldCode with
  | none => exact .inl ⟨_, rfl⟩
  | some externalId =>
    dsimp only
    rcases post_new mint (transferInput .PIX_IN_RECEIVE .POSTED externalId availableId
      amountCents key externalRef mint.now) (findByIdempotencyKey_none hfree) with
      ⟨e, he⟩ | ⟨debits, entries, accounts, hb, hinputs, hphase, hr⟩
    · exact .inl ⟨e, he⟩
    · obtain ⟨hd, hpos⟩ := assertBalanced_ok hb
      refine .inr ⟨_, accounts, hpos ⟨externalId, .DEBIT, amountCents⟩ List.mem_cons_self, hr, rfl,
        rfl, rfl, ?_, rfl, ?_, creditedOn_of_inputs hinputs hphase⟩
      · rw [postedTransaction, hd]
        simp [sumDirection, transferInput]
      · rintro rfl
        simp [transferInput] at hinputs

theorem creditIn_accepted (mint : Mint) (externalRef : Option String)
    (hfree : s.byIdempotencyKey.get key = none) (hpos : 0 < amountCents)
    (h : Postable s availableId amountCents) :
    ∃ posted, ((LedgerCommand.creditIn availableId amountCents key externalRef).perform mint s).1 =
      .ok posted := by
  obtain ⟨externalId, hx, hd⟩ := h
  unfold LedgerCommand.perform withExternal
  rw [Option.mem_def.mp hx]
  dsimp only
  have hn : ¬ amountCents ≤ 0 := by omega
  have hbalanced : assertBalanced (creditEntries externalId availableId amountCents) =
      .ok amountCents := by
    simp [assertBalanced, creditEntries, hn, sumDirection]
  exact post_accepted _ (findByIdempotencyKey_none hfree) hbalanced hd

/-- Ledger transactions already there keep their entries when a new one is stored. -/
theorem persist_entriesOf_of_ne {t : LedgerTransaction} (entries : List LedgerEntry)
    (accounts : List LedgerAccount) {id : String} (hid : id ≠ t.id) :
    (s.persist t entries accounts).entriesOf id = s.entriesOf id := by
  unfold LedgerStore.entriesOf LedgerStore.persist
  simp only
  split
  · rfl
  · rw [Table.get_set_ne _ _ hid]

theorem persist_get_of_ne {t : LedgerTransaction} (entries : List LedgerEntry)
    (accounts : List LedgerAccount) {id : String} (hid : id ≠ t.id) :
    (s.persist t entries accounts).transactions.get id = s.transactions.get id :=
  Rows.get_put_ne _ t hid

theorem persist_entriesOf {t : LedgerTransaction} {entries : List LedgerEntry}
    (accounts : List LedgerAccount) (hne : entries ≠ []) :
    (s.persist t entries accounts).entriesOf t.id = entries := by
  have hempty : entries.isEmpty = false := by simp [hne]
  simp [LedgerStore.entriesOf, LedgerStore.persist, hempty]

theorem receivedCredit_persist_new {t : LedgerTransaction} (entries : List LedgerEntry)
    (accounts : List LedgerAccount) (hnew : s.transactions.get t.id = none) (accountId : String) :
    receivedCredit (s.persist t entries accounts) accountId =
      receivedCredit s accountId + receiptOn (s.persist t entries accounts) accountId t := by
  have hold : s.transactions.total (receiptOn (s.persist t entries accounts) accountId) =
      s.transactions.total (receiptOn s accountId) := by
    refine Rows.total_congr fun id u hu => ?_
    have hid : u.id = id := Rows.key_of_get hu
    have hne : u.id ≠ t.id := by
      rintro he
      rw [← hid, he, hnew] at hu
      cases hu
    unfold receiptOn
    rw [persist_entriesOf_of_ne entries accounts hne]
  unfold receivedCredit
  rw [← hold]
  exact Rows.total_put_new hnew

theorem creditIn_receivedCredit {posted : PostTransactionResult} (accounts : List LedgerAccount)
    (hnew : s.transactions.get posted.transaction.id = none)
    (htype : posted.transaction.type = .PIX_IN_RECEIVE) (hne : posted.entries ≠ [])
    (hon : ∀ accountId, creditedOn accountId posted.entries =
      if accountId = availableId then amountCents else 0) (accountId : String) :
    receivedCredit (s.persist posted.transaction posted.entries accounts) accountId =
      receivedCredit s accountId + if accountId = availableId then amountCents else 0 := by
  rw [receivedCredit_persist_new posted.entries accounts hnew, receiptOn, if_pos htype,
    persist_entriesOf accounts hne, hon]

/-- The resolution of a hold credits nobody with an inbound payment. -/
theorem resolve_receivedCredit {commit : Bool} {hold : String}
    (hfresh : s.transactions.get mint.transactionId = none) (accountId : String) :
    receivedCredit ((resolveCommand commit hold key).perform mint s).2 accountId =
      receivedCredit s accountId := by
  by_cases hres : Resolvable s hold key commit
  · obtain ⟨pending, entries, accounts, hp, _, hrun⟩ := perform_resolve_resolvable mint hres
    rw [hrun]
    have hid : pending.id = hold := Rows.key_of_get hp
    have hne : hold ≠ mint.transactionId := fun he => by rw [he, hfresh] at hp; cases hp
    have hfirst := receivedCredit_persist_new (t := resolution mint hold
      ⟨key, some (resolveType commit)⟩ commit pending) entries accounts.values hfresh accountId
    have hzero : receiptOn (s.persist (resolution mint hold ⟨key, some (resolveType commit)⟩ commit
        pending) entries accounts.values) accountId (resolution mint hold
          ⟨key, some (resolveType commit)⟩ commit pending) = 0 := by
      cases commit <;> exact if_neg (by simp [resolution, resolveType])
    rw [hzero, Int.add_zero] at hfirst
    rw [← hfirst]
    refine Rows.total_put_same pending ?_ ?_
    · have hkey : (resolvedPending mint commit pending).id = hold := hid
      have hres : (resolution mint hold ⟨key, some (resolveType commit)⟩ commit pending).id =
          mint.transactionId := rfl
      rw [hkey, LedgerStore.persist, Rows.get_put, hres, if_neg hne, hp]
    · rfl
  · rw [perform_resolve_unchanged hres]

/-- The key stands for a posted receipt that credits the account with the amount. -/
def Credited (s : LedgerStore) (key availableId : String) (amountCents : Int) : Prop :=
  ∃ id t, s.byIdempotencyKey.get key = some id ∧ s.transactions.get id = some t ∧
    t.type = .PIX_IN_RECEIVE ∧ t.status = .POSTED ∧ t.amountCents = amountCents ∧
    creditedOn availableId (s.entriesOf id) = amountCents

variable {s' : LedgerStore}

theorem Credited.used (h : Credited s key availableId amountCents) :
    s.findByIdempotencyKey key ≠ none := by
  obtain ⟨id, t, hk, ht, _⟩ := h
  simp [LedgerStore.findByIdempotencyKey, hk, ht]

theorem Credited.of_kept (h : Credited s key availableId amountCents)
    (hkey : s'.byIdempotencyKey.get key = s.byIdempotencyKey.get key)
    (hkept : ∀ id t, s.transactions.get id = some t → t.status = .POSTED →
      s'.transactions.get id = some t ∧ s'.entriesOf id = s.entriesOf id) :
    Credited s' key availableId amountCents := by
  obtain ⟨id, t, hk, ht, htype, hstatus, hamount, hon⟩ := h
  obtain ⟨ht', he⟩ := hkept id t ht hstatus
  exact ⟨id, t, hkey.trans hk, ht', htype, hstatus, hamount, he ▸ hon⟩

/-- No credit takes a receipt back. -/
theorem Credited.creditIn (h : Credited s key availableId amountCents) (otherId : String)
    (otherCents : Int) (otherKey : String) (externalRef : Option String)
    (hfresh : s.transactions.get mint.transactionId = none) :
    Credited ((LedgerCommand.creditIn otherId otherCents otherKey externalRef).perform mint s).2 key
      availableId amountCents := by
  unfold LedgerCommand.perform withExternal
  cases s.accountIdByCode externalWorldCode with
  | none => exact h
  | some externalId =>
    dsimp only
    rcases post_cases mint (transferInput .PIX_IN_RECEIVE .POSTED externalId otherId otherCents otherKey
      externalRef mint.now) s with ⟨_, hs⟩ | ⟨_, _, _, hs⟩ | ⟨debits, entries, accounts, hk, _, hs⟩
    · rw [hs]
      exact h
    · rw [hs]
      exact h
    · rw [hs]
      have hne : key ≠ otherKey := fun he => h.used (he ▸ hk)
      refine h.of_kept (persist_keys entries accounts hne) fun id t ht _ => ?_
      have hid : id ≠ mint.transactionId := fun he => by rw [he, hfresh] at ht; cases ht
      exact ⟨(persist_get_of_ne entries accounts hid).trans ht,
        persist_entriesOf_of_ne entries accounts hid⟩

/-- No resolution of a hold takes a receipt back. -/
theorem Credited.resolve {hold otherKey : String} (h : Credited s key availableId amountCents)
    (commit : Bool) (hfresh : s.transactions.get mint.transactionId = none) :
    Credited ((resolveCommand commit hold otherKey).perform mint s).2 key availableId amountCents := by
  by_cases hres : Resolvable s hold otherKey commit
  · have hne : key ≠ otherKey := fun he => h.used (he ▸ hres.1)
    obtain ⟨pending, entries, accounts, hp, hst, hrun⟩ := perform_resolve_resolvable mint hres
    refine h.of_kept (resolve_keys commit hne) fun id t ht hstatus => ?_
    rw [hrun]
    have hid : id ≠ mint.transactionId := fun he => by rw [he, hfresh] at ht; cases ht
    have hh : id ≠ hold := by
      rintro rfl
      rw [hp, Option.some.injEq] at ht
      rw [← ht, hst] at hstatus
      cases hstatus
    refine ⟨?_, ?_⟩
    · rw [resolved_transactions hp, if_neg hh, if_neg hid]
      exact ht
    · exact persist_entriesOf_of_ne (t := resolution mint hold ⟨otherKey, some (resolveType commit)⟩
        commit pending) entries accounts.values hid
  · rw [perform_resolve_unchanged hres]
    exact h

/-- A credit that goes through, under a key that is unused or stands for it. -/
theorem creditIn_credited {posted : PostTransactionResult}
    (hkey : s.byIdempotencyKey.get key = none ∨ Credited s key availableId amountCents)
    (hfresh : s.transactions.get mint.transactionId = none)
    (h : (LedgerCommand.creditIn availableId amountCents key externalRef).perform mint s =
      (.ok posted, s')) : Credited s' key availableId amountCents := by
  obtain hfree | hcredited := hkey
  · rcases creditIn_outcomes mint availableId amountCents externalRef hfree with
      ⟨e, he⟩ | ⟨new, accounts, _, hr, hid, htype, hstatus, hamount, hk, hne, hon⟩
    · cases he.symm.trans h
    · rw [hr, Prod.mk.injEq] at h
      rw [← h.2]
      have hempty : new.entries.isEmpty = false := by simp [hne]
      refine ⟨new.transaction.id, new.transaction, ?_, Rows.get_put_self _ _, htype, hstatus, hamount,
        ?_⟩
      · simp [LedgerStore.persist, hempty, hk]
      · rw [persist_entriesOf accounts hne, hon, if_pos rfl]
  · have hs := hcredited.creditIn availableId amountCents key externalRef hfresh
    rwa [h] at hs

end BaasConnector.Ledger.Receipts
