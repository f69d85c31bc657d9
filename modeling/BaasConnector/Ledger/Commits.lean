import BaasConnector.Ledger.Postgres

namespace BaasConnector.Ledger.Resolvers

open BaasConnector.Lib.Effects BaasConnector.Lib.Keyed BaasConnector.Ledger.Types
open BaasConnector.Ledger.Engine BaasConnector.Ledger.MemoryStore BaasConnector.Ledger.Outcomes
open BaasConnector.Ledger.Holds BaasConnector.Ledger.Adjustments BaasConnector.Ledger.Receipts
open BaasConnector.Ledger.Counters BaasConnector.Ledger.Postgres

/-- One call of `commitPending` or of `voidPending`. -/
structure Resolve where
  mint : Mint
  options : ResolveOptions
  commit : Bool

variable {hold : String} {c : Resolve} {db : Database} {inputs : List LedgerEntryInput}

def Resolve.prog (hold : String) (c : Resolve) : StoreProg PostTransactionResult :=
  if c.commit then commitPending c.mint hold c.options else voidPending c.mint hold c.options

def Resolve.row (hold : String) (pending : LedgerTransaction) (c : Resolve) : LedgerTransaction :=
  resolution c.mint hold c.options c.commit pending

def settleCalls (hold : String) (c : Resolve) (pending : LedgerTransaction) (entries : List LedgerEntry) :
    StoreProg PostTransactionResult := do
  persist (resolvedPending c.mint c.commit pending) [] []
  return { transaction := c.row hold pending, entries, replayed := false }

def writeCalls (hold : String) (c : Resolve) (pending : LedgerTransaction) (entries : List LedgerEntry)
    (after : Accounts) : StoreProg PostTransactionResult := do
  persist (c.row hold pending) entries after.values
  settleCalls hold c pending entries

def build (hold : String) (c : Resolve) (pending : LedgerTransaction) (inputs : List LedgerEntryInput)
    (rows : Accounts) : Except LedgerThrown (List LedgerEntry × Accounts) :=
  buildEntries c.mint (c.row hold pending) (resolvePhase c.commit) (resolveDelta c.commit) 0 inputs rows

def lockCalls (hold : String) (c : Resolve) (pending : LedgerTransaction)
    (inputs : List LedgerEntryInput) : StoreProg PostTransactionResult := do
  let rows ← lockAccounts (lockOrder inputs)
  let (entries, after) ← Prog.ofExcept (build hold c pending inputs rows)
  writeCalls hold c pending entries after

def readCalls (hold : String) (c : Resolve) (pending : LedgerTransaction) :
    StoreProg PostTransactionResult := do
  let entries ← findEntriesByTransaction hold
  lockCalls hold c pending (entries.map (·.toLedgerEntryInput))

def findCalls (hold : String) (c : Resolve) : StoreProg PostTransactionResult := do
  match ← findTransaction hold with
  | none => throw (.validation s!"Transacao pendente {hold} nao encontrada")
  | some pending =>
    let text := pending.status.text
    if pending.status ≠ .PENDING then
      throw (.validation s!"Transacao {hold} esta {text}; so PENDING pode ser resolvida")
    else readCalls hold c pending

def keyCalls (hold : String) (c : Resolve) : StoreProg PostTransactionResult := do
  match ← findByIdempotencyKey c.options.idempotencyKey with
  | some existing => return { existing with replayed := true }
  | none => findCalls hold c

theorem prog_eq (hold : String) (c : Resolve) : c.prog hold = keyCalls hold c := by
  obtain ⟨mint, options, commit⟩ := c
  cases commit <;> rfl

def firstWrite (hold : String) (c : Resolve) (pending : LedgerTransaction) (entries : List LedgerEntry)
    (after : Accounts) : Write := ⟨c.row hold pending, entries, after.values⟩

def secondWrite (c : Resolve) (pending : LedgerTransaction) : Write :=
  ⟨resolvedPending c.mint c.commit pending, [], []⟩

def holdInputs (db : Database) (hold : String) : List LedgerEntryInput :=
  (db.findEntriesByTransaction hold).map (·.toLedgerEntryInput)

/-- The rows that a lock request has taken are the committed ones, and locked. -/
structure Taken (db : Database) (ids locks : List String) (rows : Accounts) : Prop where
  rows : ∀ k, rows.get k = if k ∈ ids then db.accounts.get k else none
  locked : ∀ k ∈ ids, (db.accounts.get k).isSome → k ∈ locks

/-- The resolution is made of the rows of all accounts of the hold. -/
def Built (db : Database) (hold : String) (inputs : List LedgerEntryInput) (c : Resolve)
    (pending : LedgerTransaction) (entries : List LedgerEntry) (after : Accounts) (locks : List String) :
    Prop :=
  pending.id = hold ∧ ∃ rows, Taken db (lockOrder inputs) locks rows ∧
    build hold c pending inputs rows = .ok (entries, after)

/-- Where the transaction of one call stands. -/
inductive Stage (db : Database) (hold : String) (inputs : List LedgerEntryInput) (c : Resolve) :
    Session → Prop
  | asking : Stage db hold inputs c ⟨keyCalls hold c, none, [], [], .running⟩
  | answered (r : PostTransactionResult) : Stage db hold inputs c ⟨.pure r, none, [], [], .running⟩
  | failed (e : LedgerThrown) (locks : List String) :
      Stage db hold inputs c ⟨.throw e, none, locks, [], .running⟩
  | finding : Stage db hold inputs c ⟨findCalls hold c, none, [], [], .running⟩
  | reading (pending : LedgerTransaction) (hid : pending.id = hold) :
      Stage db hold inputs c ⟨readCalls hold c pending, none, [], [], .running⟩
  | locking (pending : LedgerTransaction) (hid : pending.id = hold) :
      Stage db hold inputs c ⟨lockCalls hold c pending inputs, none, [], [], .running⟩
  | collecting (pending : LedgerTransaction) (hid : pending.id = hold) (ids rest locks : List String)
      (rows : Accounts) (hids : lockOrder inputs = ids ++ rest) (htaken : Taken db ids locks rows) :
      Stage db hold inputs c ⟨lockCalls hold c pending inputs, some (rest, rows), locks, [], .running⟩
  | writing (pending : LedgerTransaction) (entries : List LedgerEntry) (after : Accounts)
      (locks : List String) (hbuilt : Built db hold inputs c pending entries after locks) :
      Stage db hold inputs c ⟨writeCalls hold c pending entries after, none, locks, [], .running⟩
  | settling (pending : LedgerTransaction) (entries : List LedgerEntry) (after : Accounts)
      (locks : List String) (hbuilt : Built db hold inputs c pending entries after locks) :
      Stage db hold inputs c
        ⟨settleCalls hold c pending entries, none, locks, [firstWrite hold c pending entries after], .running⟩
  | closing (r : PostTransactionResult) (pending : LedgerTransaction) (entries : List LedgerEntry)
      (after : Accounts) (locks : List String)
      (hbuilt : Built db hold inputs c pending entries after locks) :
      Stage db hold inputs c
        ⟨.pure r, none, locks, [firstWrite hold c pending entries after, secondWrite c pending], .running⟩
  | committed (prog : StoreProg PostTransactionResult) (writes : List Write) :
      Stage db hold inputs c ⟨prog, none, [], writes, .committed⟩
  | rolledBack (prog : StoreProg PostTransactionResult) :
      Stage db hold inputs c ⟨prog, none, [], [], .rolledBack⟩

variable {s s' : Session} {locked : String → Prop} {written : LedgerTransaction → Prop}

theorem Taken.of_locks {ids locks locks' : List String} {rows : Accounts} (h : Taken db ids locks rows)
    (hsub : ∀ k ∈ locks, k ∈ locks') : Taken db ids locks' rows :=
  ⟨h.rows, fun k hk hsome => hsub k (h.locked k hk hsome)⟩

theorem Built.of_locks {pending : LedgerTransaction} {entries : List LedgerEntry} {after : Accounts}
    {locks locks' : List String} (h : Built db hold inputs c pending entries after locks)
    (hsub : ∀ k ∈ locks, k ∈ locks') : Built db hold inputs c pending entries after locks' := by
  obtain ⟨hid, rows, htaken, hbuild⟩ := h
  exact ⟨hid, rows, htaken.of_locks hsub, hbuild⟩

theorem Taken.lock {ids locks : List String} {rows : Accounts} {id : String} {a : LedgerAccount}
    (h : Taken db ids locks rows) (ha : db.accounts.get id = some a) :
    Taken db (ids ++ [id]) (id :: locks) (rows.set id a) := by
  constructor
  · intro k
    rw [Table.get_set]
    by_cases hk : k = id
    · simp [hk, ha]
    · rw [if_neg hk, h.rows]
      simp [hk]
  · intro k hk hsome
    obtain hk | hk := List.mem_append.mp hk
    · exact List.mem_cons_of_mem _ (h.locked k hk hsome)
    · rw [List.mem_singleton.mp hk]
      exact List.mem_cons_self

theorem Taken.skip {ids locks : List String} {rows : Accounts} {id : String}
    (h : Taken db ids locks rows) (ha : db.accounts.get id = none) : Taken db (ids ++ [id]) locks rows := by
  constructor
  · intro k
    rw [h.rows]
    by_cases hk : k = id
    · simp [hk, ha]
    · simp [hk]
  · intro k hk hsome
    obtain hk | hk := List.mem_append.mp hk
    · exact h.locked k hk hsome
    · rw [List.mem_singleton.mp hk, ha] at hsome
      cases hsome

theorem Stage.step (h : Stage db hold inputs c s) (hin : holdInputs db hold = inputs)
    (hstep : SessionStep db locked written s s') : Stage db hold inputs c s' := by
  have hview : db.view [] = db := rfl
  cases h with
  | asking =>
    cases hstep with
    | read hread =>
      cases hread
      cases hk : db.findByIdempotencyKey c.options.idempotencyKey with
      | some existing =>
        rw [hview, hk]
        exact .answered _
      | none =>
        rw [hview, hk]
        exact .finding
    | rollBack => exact .rolledBack _
  | answered r =>
    cases hstep with
    | rollBack => exact .rolledBack _
  | failed e locks =>
    cases hstep with
    | rollBack => exact .rolledBack _
  | finding =>
    cases hstep with
    | read hread =>
      cases hread
      rw [hview]
      cases hp : db.transactions.get hold with
      | none => exact .failed _ _
      | some pending =>
        change Stage db hold inputs c
          ⟨if pending.status ≠ .PENDING then _ else readCalls hold c pending, none, [], [], .running⟩
        split
        · exact .failed _ _
        · exact .reading pending (Rows.key_of_get hp)
    | rollBack => exact .rolledBack _
  | reading pending hid =>
    cases hstep with
    | read hread =>
      cases hread
      have hs : Stage db hold (holdInputs db hold) c
          ⟨lockCalls hold c pending (holdInputs db hold), none, [], [], .running⟩ := .locking pending hid
      rw [← hin]
      exact hs
    | rollBack => exact .rolledBack _
  | locking pending hid =>
    cases hstep with
    | read hread => cases hread
    | beginLock =>
      refine .collecting pending hid [] (lockOrder inputs) [] .empty rfl ⟨fun k => rfl, ?_⟩
      intro k hk
      cases hk
    | rollBack => exact .rolledBack _
  | collecting pending hid ids rest locks rows hids htaken =>
    cases hstep with
    | lockRow hrow hfree =>
      exact .collecting pending hid _ _ _ _ (by rw [hids, List.append_assoc]; rfl) (htaken.lock hrow)
    | skipRow hrow =>
      exact .collecting pending hid _ _ _ _ (by rw [hids, List.append_assoc]; rfl) (htaken.skip hrow)
    | endLock =>
      rw [List.append_nil] at hids
      change Stage db hold inputs c
        ⟨(Prog.ofExcept (build hold c pending inputs rows)).bind _, none, locks, [], .running⟩
      cases hb : build hold c pending inputs rows with
      | error e => exact .failed e locks
      | ok built =>
        exact .writing pending built.1 built.2 locks ⟨hid, rows, hids ▸ htaken, hb⟩
    | rollBack => exact .rolledBack _
  | writing pending entries after locks hbuilt =>
    cases hstep with
    | read hread => cases hread
    | write hadmits hfree hclear =>
      exact .settling pending entries after _ (hbuilt.of_locks fun k hk => List.mem_append_right _ hk)
    | rollBack => exact .rolledBack _
  | settling pending entries after locks hbuilt =>
    cases hstep with
    | read hread => cases hread
    | write hadmits hfree hclear =>
      exact .closing _ pending entries after _ (hbuilt.of_locks fun k hk => List.mem_append_right _ hk)
    | rollBack => exact .rolledBack _
  | closing r pending entries after locks hbuilt =>
    cases hstep with
    | rollBack => exact .rolledBack _
  | committed prog writes => cases hstep
  | rolledBack prog => cases hstep

end BaasConnector.Ledger.Resolvers

namespace BaasConnector.Ledger.Commits

open BaasConnector.Lib.Effects BaasConnector.Lib.Keyed BaasConnector.Ledger.Types
open BaasConnector.Ledger.Engine BaasConnector.Ledger.Outcomes BaasConnector.Ledger.Holds
open BaasConnector.Ledger.Adjustments BaasConnector.Ledger.Receipts BaasConnector.Ledger.Counters
open BaasConnector.Ledger.Postgres BaasConnector.Ledger.Resolvers

/-- The counters of one database are those of the other with the hold resolved. -/
def Settled (base db : Database) (inputs : List LedgerEntryInput) (commit : Bool) : Prop :=
  ∀ k phase direction, (db.accounts.get k).map (counter · phase direction) =
    (base.accounts.get k).map fun a =>
      counter a phase direction + changeOn (resolveDelta commit) k phase direction inputs

variable {db : Database} {hold : String} {inputs : List LedgerEntryInput} {c : Resolve}
  {pending : LedgerTransaction} {entries : List LedgerEntry} {after : Accounts} {locks : List String}

theorem Taken.keyed {ids : List String} {rows : Accounts} (h : Taken db ids locks rows) :
    ∀ k a, rows.get k = some a → a.id = k := by
  intro k a ha
  rw [h.rows] at ha
  split at ha
  · exact Rows.key_of_get ha
  · cases ha

theorem commit_transactions (hid : pending.id = hold) {k : String} (hk : k ≠ hold)
    (hm : k ≠ c.mint.transactionId) :
    (db.view [firstWrite hold c pending entries after, secondWrite c pending]).transactions.get k =
      db.transactions.get k := by
  change (upsertTransaction (upsertTransaction db.transactions (c.row hold pending))
    (resolvedPending c.mint c.commit pending)).get k = _
  have hsettled : k ≠ (resolvedPending c.mint c.commit pending).id := hid ▸ hk
  rw [upsertTransaction_get _ _ _ hsettled]
  exact upsertTransaction_get _ _ _ hm

theorem commit_recorded (hid : pending.id = hold) (hm : c.mint.transactionId ≠ hold)
    (hfresh : db.transactions.get c.mint.transactionId = none) :
    (db.view [firstWrite hold c pending entries after, secondWrite c pending]).transactions.get
      c.mint.transactionId = some (c.row hold pending) := by
  change (upsertTransaction (upsertTransaction db.transactions (c.row hold pending))
    (resolvedPending c.mint c.commit pending)).get _ = _
  have hkey : (c.row hold pending).id = c.mint.transactionId := rfl
  have hfirst : (upsertTransaction db.transactions (c.row hold pending)).get c.mint.transactionId =
      some (c.row hold pending) := by
    rw [upsertTransaction, hkey, hfresh]
    exact Rows.get_put_self _ (c.row hold pending)
  have hsettled : c.mint.transactionId ≠ (resolvedPending c.mint c.commit pending).id := hid ▸ hm
  rw [upsertTransaction_get _ _ _ hsettled, hfirst]

theorem commit_inputs (h : Built db hold inputs c pending entries after locks)
    (hm : c.mint.transactionId ≠ hold) :
    holdInputs (db.view [firstWrite hold c pending entries after, secondWrite c pending]) hold =
      holdInputs db hold := by
  obtain ⟨-, rows, -, hbuild⟩ := h
  have howned := buildEntries_owned _ _ _ _ hbuild
  have hnil : entries.filter (·.transactionId = hold) = [] := by
    apply List.filter_eq_nil_iff.mpr
    intro e he
    have hid : e.transactionId = c.mint.transactionId := howned e he
    simp [hid, hm]
  have hentries : (db.view [firstWrite hold c pending entries after, secondWrite c pending]).entries =
      db.entries ++ entries := List.append_nil _
  rw [holdInputs, Database.findEntriesByTransaction, hentries, List.filter_append, hnil, List.append_nil]
  rfl

/-- A commit changes no account that is not locked. -/
theorem commit_unlocked (h : Built db hold inputs c pending entries after locks) {k : String}
    (hk : k ∉ locks) :
    (db.view [firstWrite hold c pending entries after, secondWrite c pending]).accounts.get k =
      db.accounts.get k := by
  obtain ⟨-, rows, htaken, hbuild⟩ := h
  have happly := (deltas_of_buildEntries _ _ _ _ _ _ _ _ _ hbuild).1
  have hkeyed := Taken.keyed htaken
  change (after.values.foldl updateAccount db.accounts).get k = _
  apply updateAccounts_get_of_ne
  intro a ha he
  obtain ⟨k', hk'⟩ := Table.mem_values.mp ha
  have hid := applyDeltas_keyed hkeyed happly k' a hk'
  obtain ⟨-, hnone⟩ | ⟨before, now, hbefore, -, -⟩ := applyDeltas_moved hkeyed happly k'
  · rw [hnone] at hk'
    cases hk'
  · rw [htaken.rows] at hbefore
    split at hbefore
    · next hmem =>
      apply hk
      rw [← he, hid]
      exact htaken.locked k' hmem (by rw [hbefore]; rfl)
    · cases hbefore

/-- A commit resolves the hold on every account. -/
theorem commit_settled (h : Built db hold inputs c pending entries after locks) :
    Settled db (db.view [firstWrite hold c pending entries after, secondWrite c pending]) inputs
      c.commit := by
  obtain ⟨-, rows, htaken, hbuild⟩ := h
  have happly := (deltas_of_buildEntries _ _ _ _ _ _ _ _ _ hbuild).1
  have hkeyed := Taken.keyed htaken
  have hafter := applyDeltas_keyed hkeyed happly
  intro k phase direction
  change ((after.values.foldl updateAccount db.accounts).get k).map _ = _
  obtain ⟨hout, hnone⟩ | ⟨before, now, hbefore, hnow, hmoved⟩ := applyDeltas_moved hkeyed happly k
  · have hmiss : ∀ a ∈ after.values, a.id ≠ k := by
      intro a ha he
      obtain ⟨k', hk'⟩ := Table.mem_values.mp ha
      rw [← hafter k' a hk', he, hnone] at hk'
      cases hk'
    rw [updateAccounts_get_of_ne _ hmiss]
    cases ha : db.accounts.get k with
    | none => rfl
    | some a =>
      have hzero : changeOn (resolveDelta c.commit) k phase direction inputs = 0 := by
        have hnil : inputs.filter (·.accountId = k) = [] := by
          apply List.filter_eq_nil_iff.mpr
          intro i hi
          simp only [decide_eq_true_eq]
          intro he
          rw [htaken.rows, if_pos (mem_lockOrder.mpr ⟨i, hi, he⟩), ha] at hout
          cases hout
        rw [changeOn, hnil]
        rfl
      simp [hzero]
  · have hmem : now ∈ after.values := Table.mem_values.mpr ⟨k, hnow⟩
    have hid : now.id = k := hafter k now hnow
    have hget := updateAccounts_get_of_mem db.accounts (keyed_nodup hafter) hmem
    have hkey : before.id = k := hkeyed k before hbefore
    rw [htaken.rows] at hbefore
    split at hbefore
    · rw [hid] at hget
      rw [hget, hbefore]
      simp only [Option.map_some, counter_writeCounters, Option.some.injEq]
      rw [hmoved.counters, hkey]
    · cases hbefore

end BaasConnector.Ledger.Commits
