import BaasConnector.Ledger.Engine

namespace BaasConnector.Ledger.MemoryStore

open BaasConnector.Lib.Effects BaasConnector.Lib.Keyed BaasConnector.Ledger.Types
open BaasConnector.Ledger.Engine

abbrev AccountRows := Rows String LedgerAccount LedgerAccount.id

abbrev TransactionRows := Rows String LedgerTransaction LedgerTransaction.id

structure LedgerStore where
  accounts : AccountRows
  transactions : TransactionRows
  entries : Table String (List LedgerEntry)
  byIdempotencyKey : Table String String

namespace LedgerStore

def empty : LedgerStore := ⟨.empty, .empty, .empty, .empty⟩

instance : Inhabited LedgerStore := ⟨empty⟩

def createAccount (s : LedgerStore) (account : LedgerAccount) : LedgerStore :=
  { s with accounts := s.accounts.put account }

def lockAccounts (s : LedgerStore) (orderedIds : List String) : Accounts :=
  orderedIds.foldl (fun locked id =>
    match s.accounts.get id with
    | some account => locked.set id account
    | none => locked) .empty

def entriesOf (s : LedgerStore) (id : String) : List LedgerEntry := (s.entries.get id).getD []

def findByIdempotencyKey (s : LedgerStore) (key : String) : Option PostTransactionResult := do
  let transactionId ← s.byIdempotencyKey.get key
  let transaction ← s.transactions.get transactionId
  return ⟨transaction, s.entriesOf transactionId, true⟩

def accountIdByCode (s : LedgerStore) (code : String) : Option String :=
  (s.accounts.search (fun account => decide (account.code = code))).map (·.id)

def setAccounts (rows : AccountRows) (accounts : List LedgerAccount) : AccountRows :=
  accounts.foldl Rows.put rows

def persist (s : LedgerStore) (transaction : LedgerTransaction) (entries : List LedgerEntry)
    (accounts : List LedgerAccount) : LedgerStore where
  accounts := setAccounts s.accounts accounts
  transactions := s.transactions.put transaction
  entries := if entries.isEmpty then s.entries else s.entries.set transaction.id entries
  byIdempotencyKey :=
    if entries.isEmpty then s.byIdempotencyKey
    else s.byIdempotencyKey.set transaction.idempotencyKey transaction.id

end LedgerStore

def answer : (q : StoreCall) → LedgerStore → Except LedgerThrown (StoreAnswer q) × LedgerStore
  | .lockAccounts orderedIds, s => (.ok (s.lockAccounts orderedIds), s)
  | .findByIdempotencyKey key, s => (.ok (s.findByIdempotencyKey key), s)
  | .findTransaction id, s => (.ok (s.transactions.get id), s)
  | .findEntriesByTransaction id, s => (.ok (s.entriesOf id), s)
  | .persist transaction entries accounts, s => (.ok (), s.persist transaction entries accounts)

/-- One callback run with the ledger to itself: a callback that throws leaves
the ledger as it was. -/
def runExclusive {α : Type} (p : StoreProg α) (s : LedgerStore) : Except LedgerThrown α × LedgerStore :=
  match p.eval answer s with
  | (.ok a, s') => (.ok a, s')
  | (.error e, _) => (.error e, s)

theorem eval_findByIdempotencyKey {α : Type} (key : String)
    (f : Option PostTransactionResult → StoreProg α) (s : LedgerStore) :
    ((Engine.findByIdempotencyKey key).bind f).eval answer s =
      (f (s.findByIdempotencyKey key)).eval answer s := rfl

theorem eval_findTransaction {α : Type} (id : String)
    (f : Option LedgerTransaction → StoreProg α) (s : LedgerStore) :
    ((Engine.findTransaction id).bind f).eval answer s = (f (s.transactions.get id)).eval answer s :=
  rfl

theorem eval_findEntriesByTransaction {α : Type} (id : String)
    (f : List LedgerEntry → StoreProg α) (s : LedgerStore) :
    ((Engine.findEntriesByTransaction id).bind f).eval answer s =
      (f (s.entriesOf id)).eval answer s := rfl

theorem eval_lockAccounts {α : Type} (ids : List String) (f : Accounts → StoreProg α) (s : LedgerStore) :
    ((Engine.lockAccounts ids).bind f).eval answer s = (f (s.lockAccounts ids)).eval answer s := rfl

theorem eval_ofExcept {α β : Type} (r : Except LedgerThrown β) (f : β → StoreProg α) (s : LedgerStore) :
    ((Prog.ofExcept r).bind f).eval answer s =
      match r with
      | .ok b => (f b).eval answer s
      | .error e => (.error e, s) := by
  cases r <;> rfl

theorem lockAccounts_get (s : LedgerStore) (ids : List String) (id : String) :
    (s.lockAccounts ids).get id = if id ∈ ids then s.accounts.get id else none := by
  unfold LedgerStore.lockAccounts
  suffices h : ∀ locked : Accounts, (∀ k ∈ ids, locked.get k = none ∨ locked.get k = s.accounts.get k) →
      (ids.foldl (fun locked id => match s.accounts.get id with
        | some account => locked.set id account
        | none => locked) locked).get id =
      if id ∈ ids then s.accounts.get id else locked.get id by
    simpa using h .empty (by simp)
  induction ids with
  | nil => simp
  | cons i ids ih =>
    intro locked hl
    rw [List.foldl_cons, ih]
    · by_cases hi : id = i
      · subst hi
        by_cases hm : id ∈ ids
        · simp [hm]
        · cases ha : s.accounts.get id with
          | none =>
            obtain h | h := hl id (by simp) <;> simp [hm, h, ha]
          | some a => simp [hm]
      · cases ha : s.accounts.get i with
        | none => simp [hi]
        | some a => simp [hi, Table.get_set_ne _ _ hi]
    · intro k hk
      cases ha : s.accounts.get i with
      | none => exact hl k (List.mem_cons_of_mem _ hk)
      | some a =>
        by_cases hki : k = i
        · subst hki
          simp [ha]
        · simpa [Table.get_set_ne _ _ hki] using hl k (List.mem_cons_of_mem _ hk)

end BaasConnector.Ledger.MemoryStore
