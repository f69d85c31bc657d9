import BaasConnector.Ledger.Counters
import Mathlib.Logic.Function.Basic
import Mathlib.Logic.Relation

namespace BaasConnector.Ledger.Postgres

open BaasConnector.Lib.Effects BaasConnector.Lib.Keyed BaasConnector.Ledger.Types
open BaasConnector.Ledger.Engine BaasConnector.Ledger.MemoryStore BaasConnector.Ledger.Invariants
open BaasConnector.Ledger.Counters

/-- What is committed. -/
structure Database where
  accounts : AccountRows
  transactions : TransactionRows
  entries : List LedgerEntry

/-- The arguments of one call of the stored procedure. -/
structure Write where
  transaction : LedgerTransaction
  entries : List LedgerEntry
  accounts : List LedgerAccount
deriving DecidableEq

/-- A row that is there keeps all but its status and the times of it. -/
def upsertTransaction (rows : TransactionRows) (t : LedgerTransaction) : TransactionRows :=
  match rows.get t.id with
  | some old =>
    rows.put { old with status := t.status, postedAt := t.postedAt, voidedAt := t.voidedAt }
  | none => rows.put t

def writeCounters (a c : LedgerAccount) : LedgerAccount :=
  { a with
    debitsPosted := c.debitsPosted
    creditsPosted := c.creditsPosted
    debitsPending := c.debitsPending
    creditsPending := c.creditsPending
    entryCount := c.entryCount
    version := a.version + 1 }

def updateAccount (rows : AccountRows) (c : LedgerAccount) : AccountRows :=
  match rows.get c.id with
  | some a => rows.put (writeCounters a c)
  | none => rows

namespace Database

def findEntriesByTransaction (db : Database) (id : String) : List LedgerEntry :=
  (db.entries.filter (·.transactionId = id)).insertionSort fun e f => e.sequence ≤ f.sequence

def findByIdempotencyKey (db : Database) (key : String) : Option PostTransactionResult :=
  (db.transactions.search fun t => decide (t.idempotencyKey = key)).map fun t =>
    ⟨t, db.findEntriesByTransaction t.id, true⟩

def postTransaction (db : Database) (w : Write) : Database where
  accounts := w.accounts.foldl updateAccount db.accounts
  transactions := upsertTransaction db.transactions w.transaction
  entries := db.entries ++ w.entries

/-- The unique indexes on the idempotency key and on the hold that is resolved. -/
def UniqueIn (db : Database) (t : LedgerTransaction) : Prop :=
  ∀ u ∈ db.transactions.table.values, u.idempotencyKey ≠ t.idempotencyKey ∧
    (t.pendingTransactionId.isSome → u.pendingTransactionId ≠ t.pendingTransactionId)

/-- The constraints that are checked at once. A row that is updated instead of
inserted keeps its keys. -/
def Admits (db : Database) (w : Write) : Prop :=
  (db.transactions.get w.transaction.id = none → db.UniqueIn w.transaction) ∧
  (∀ e ∈ w.entries, 0 < e.amountCents) ∧
  ∀ c ∈ w.accounts, ∀ a ∈ (db.postTransaction w).accounts.get c.id,
    0 ≤ a.debitsPosted ∧ 0 ≤ a.creditsPosted ∧ 0 ≤ a.debitsPending ∧ 0 ≤ a.creditsPending ∧
      violatesOverdraftGuard a = false

/-- What a transaction with these writes sees: the committed rows, and its own. -/
def view (db : Database) (writes : List Write) : Database := writes.foldl postTransaction db

/-- The constraint that is deferred to the commit. -/
def BalancedFor (db : Database) (writes : List Write) : Prop :=
  ∀ w ∈ writes, ∀ e ∈ w.entries, EntriesBalanced (db.entries.filter (·.transactionId = e.transactionId))

end Database

/-- The reads that take no lock. -/
def readAnswer : (q : StoreCall) → Database → Option (StoreAnswer q)
  | .findByIdempotencyKey key, db => some (db.findByIdempotencyKey key)
  | .findTransaction id, db => some (db.transactions.get id)
  | .findEntriesByTransaction id, db => some (db.findEntriesByTransaction id)
  | .lockAccounts _, _ => none
  | .persist .., _ => none

inductive Progress
  | running | committed | rolledBack
deriving DecidableEq, Repr

/-- One database transaction: what is left to run, the rows that a lock request
has yet to take and those it has, the locks that are held and the writes so far. -/
structure Session where
  prog : StoreProg PostTransactionResult
  locking : Option (List String × Accounts)
  locks : List String
  writes : List Write
  progress : Progress

def Session.start (prog : StoreProg PostTransactionResult) : Session := ⟨prog, none, [], [], .running⟩

/-- Two rows of which one has to wait for the other to be committed or undone. -/
def Clash (t u : LedgerTransaction) : Prop :=
  t.id = u.id ∨ t.idempotencyKey = u.idempotencyKey ∨
    t.pendingTransactionId.isSome ∧ t.pendingTransactionId = u.pendingTransactionId

/-- What one transaction does while others hold locks and have written rows. A
lock request takes the rows one by one. A transaction may be undone at any
point: by an error, a constraint, a lock that is waited for too long. -/
inductive SessionStep (db : Database) (locked : String → Prop) (written : LedgerTransaction → Prop) :
    Session → Session → Prop
  | read {q : StoreCall} {k : Except LedgerThrown (StoreAnswer q) → StoreProg PostTransactionResult}
      {a : StoreAnswer q} {locks : List String} {writes : List Write}
      (hread : readAnswer q (db.view writes) = some a) :
      SessionStep db locked written ⟨.call q k, none, locks, writes, .running⟩
        ⟨k (.ok a), none, locks, writes, .running⟩
  | beginLock {ids : List String} {k : Except LedgerThrown Accounts → StoreProg PostTransactionResult}
      {locks : List String} {writes : List Write} :
      SessionStep db locked written ⟨.call (.lockAccounts ids) k, none, locks, writes, .running⟩
        ⟨.call (.lockAccounts ids) k, some (ids, .empty), locks, writes, .running⟩
  | lockRow {ids rest : List String} {id : String} {rows : Accounts} {a : LedgerAccount}
      {k : Except LedgerThrown Accounts → StoreProg PostTransactionResult} {locks : List String}
      {writes : List Write} (hrow : (db.view writes).accounts.get id = some a) (hfree : ¬ locked id) :
      SessionStep db locked written
        ⟨.call (.lockAccounts ids) k, some (id :: rest, rows), locks, writes, .running⟩
        ⟨.call (.lockAccounts ids) k, some (rest, rows.set id a), id :: locks, writes, .running⟩
  | skipRow {ids rest : List String} {id : String} {rows : Accounts}
      {k : Except LedgerThrown Accounts → StoreProg PostTransactionResult} {locks : List String}
      {writes : List Write} (hrow : (db.view writes).accounts.get id = none) :
      SessionStep db locked written
        ⟨.call (.lockAccounts ids) k, some (id :: rest, rows), locks, writes, .running⟩
        ⟨.call (.lockAccounts ids) k, some (rest, rows), locks, writes, .running⟩
  | endLock {ids : List String} {rows : Accounts}
      {k : Except LedgerThrown Accounts → StoreProg PostTransactionResult} {locks : List String}
      {writes : List Write} :
      SessionStep db locked written ⟨.call (.lockAccounts ids) k, some ([], rows), locks, writes, .running⟩
        ⟨k (.ok rows), none, locks, writes, .running⟩
  | write {t : LedgerTransaction} {es : List LedgerEntry} {cs : List LedgerAccount}
      {k : Except LedgerThrown Unit → StoreProg PostTransactionResult} {locks : List String}
      {writes : List Write} (hadmits : (db.view writes).Admits ⟨t, es, cs⟩)
      (hfree : ∀ c ∈ cs, ¬ locked c.id) (hclear : ∀ u, written u → ¬ Clash t u) :
      SessionStep db locked written ⟨.call (.persist t es cs) k, none, locks, writes, .running⟩
        ⟨k (.ok ()), none, cs.map (·.id) ++ locks, writes ++ [⟨t, es, cs⟩], .running⟩
  | rollBack {prog : StoreProg PostTransactionResult} {locking : Option (List String × Accounts)}
      {locks : List String} {writes : List Write} :
      SessionStep db locked written ⟨prog, locking, locks, writes, .running⟩
        ⟨prog, none, [], [], .rolledBack⟩

variable {ι : Type} [DecidableEq ι]

/-- The committed rows, and every transaction there is. -/
structure State (ι : Type) where
  db : Database
  sessions : ι → Session

namespace State

def Locked (σ : State ι) (i : ι) (id : String) : Prop := ∃ j, j ≠ i ∧ id ∈ (σ.sessions j).locks

def Written (σ : State ι) (i : ι) (t : LedgerTransaction) : Prop :=
  ∃ j, j ≠ i ∧ (σ.sessions j).progress = .running ∧ ∃ w ∈ (σ.sessions j).writes, w.transaction = t

end State

/-- The transactions take turns in any order. A commit makes the writes of a
transaction visible all at once, and gives its locks back. -/
inductive Step : State ι → State ι → Prop
  | session {σ : State ι} (i : ι) {s : Session}
      (h : SessionStep σ.db (σ.Locked i) (σ.Written i) (σ.sessions i) s) :
      Step σ ⟨σ.db, Function.update σ.sessions i s⟩
  | commit {σ : State ι} (i : ι) {r : PostTransactionResult} {locks : List String} {writes : List Write}
      (hs : σ.sessions i = ⟨.pure r, none, locks, writes, .running⟩)
      (hbalanced : (σ.db.view writes).BalancedFor writes) :
      Step σ ⟨σ.db.view writes, Function.update σ.sessions i ⟨.pure r, none, [], writes, .committed⟩⟩

def Runs : State ι → State ι → Prop := Relation.ReflTransGen Step

theorem upsertTransaction_get (rows : TransactionRows) (t : LedgerTransaction) (k : String) (hk : k ≠ t.id) :
    (upsertTransaction rows t).get k = rows.get k := by
  unfold upsertTransaction
  split
  · next old hold =>
    have hid : old.id = t.id := Rows.key_of_get hold
    apply Rows.get_put_ne
    exact hid ▸ hk
  · exact Rows.get_put_ne _ _ hk

theorem updateAccount_get (rows : AccountRows) (c : LedgerAccount) (k : String) :
    (updateAccount rows c).get k = (rows.get k).map fun a => if k = c.id then writeCounters a c else a := by
  unfold updateAccount
  cases hc : rows.get c.id with
  | none =>
    by_cases hk : k = c.id
    · simp [hk, hc]
    · simp [hk]
  | some a =>
    have hid : (writeCounters a c).id = c.id := Rows.key_of_get (v := a) hc
    dsimp only
    rw [Rows.get_put, hid]
    by_cases hk : k = c.id
    · simp [hk, hc]
    · simp [hk]

theorem updateAccounts_get_of_ne {cs : List LedgerAccount} {k : String} (rows : AccountRows)
    (h : ∀ c ∈ cs, c.id ≠ k) : (cs.foldl updateAccount rows).get k = rows.get k := by
  induction cs generalizing rows with
  | nil => rfl
  | cons c cs ih =>
    rw [List.foldl_cons, ih _ fun d hd => h d (List.mem_cons_of_mem _ hd), updateAccount_get]
    have hne : k ≠ c.id := fun he => h c List.mem_cons_self he.symm
    simp [hne]

theorem updateAccounts_get_of_mem {cs : List LedgerAccount} (rows : AccountRows)
    (h : (cs.map LedgerAccount.id).Nodup) {c : LedgerAccount} (hc : c ∈ cs) :
    (cs.foldl updateAccount rows).get c.id = (rows.get c.id).map fun a => writeCounters a c := by
  induction cs generalizing rows with
  | nil => cases hc
  | cons d cs ih =>
    rw [List.map_cons, List.nodup_cons] at h
    rw [List.foldl_cons]
    by_cases hm : c ∈ cs
    · have hne : c.id ≠ d.id := fun he => h.1 (List.mem_map.mpr ⟨c, hm, he⟩)
      rw [ih _ h.2 hm, updateAccount_get]
      simp [hne]
    · have he : c = d := (List.mem_cons.mp hc).resolve_right hm
      subst he
      rw [updateAccounts_get_of_ne _ fun d hd hk => h.1 (List.mem_map.mpr ⟨d, hd, hk⟩), updateAccount_get]
      simp

theorem updateAccounts_none {cs : List LedgerAccount} {rows : AccountRows} {k : String}
    (h : rows.get k = none) : (cs.foldl updateAccount rows).get k = none := by
  induction cs generalizing rows with
  | nil => exact h
  | cons c cs ih =>
    apply ih
    rw [updateAccount_get, h]
    rfl

theorem counter_writeCounters (a c : LedgerAccount) (phase : PostPhase) (direction : EntryDirection) :
    counter (writeCounters a c) phase direction = counter c phase direction := by
  cases phase <;> cases direction <;> rfl

end BaasConnector.Ledger.Postgres
