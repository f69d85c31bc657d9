import BaasConnector.Ledger.Postgres
import Mathlib.Data.Fintype.Basic

namespace BaasConnector.Ledger.Turns

open BaasConnector.Lib.Effects BaasConnector.Lib.Keyed BaasConnector.Ledger.Types
open BaasConnector.Ledger.Engine BaasConnector.Ledger.MemoryStore BaasConnector.Ledger.Invariants
open BaasConnector.Ledger.Postgres

instance (t u : LedgerTransaction) : Decidable (Clash t u) :=
  inferInstanceAs (Decidable (_ ∨ _ ∨ _ ∧ _))

instance (db : Database) (t : LedgerTransaction) : Decidable (db.UniqueIn t) :=
  inferInstanceAs (Decidable (∀ u ∈ db.transactions.table.values, _ ∧ (_ → _)))

instance (db : Database) (w : Write) : Decidable (db.Admits w) :=
  inferInstanceAs (Decidable ((_ = none → db.UniqueIn w.transaction) ∧ (∀ e ∈ w.entries, _) ∧
    ∀ c ∈ w.accounts, ∀ a ∈ (db.postTransaction w).accounts.get c.id, _))

instance (entries : List LedgerEntry) : Decidable (EntriesBalanced entries) :=
  inferInstanceAs (Decidable (_ = _))

instance (db : Database) (writes : List Write) : Decidable (db.BalancedFor writes) :=
  inferInstanceAs (Decidable (∀ w ∈ writes, ∀ e ∈ w.entries, _))

variable {ι : Type} [DecidableEq ι]

def put (σ : State ι) (i : ι) (s : Session) : State ι := ⟨σ.db, Function.update σ.sessions i s⟩

theorem put_runs {σ : State ι} {i : ι} {s s' : Session} (hs : σ.sessions i = s)
    (h : SessionStep σ.db (σ.Locked i) (σ.Written i) s s') : Runs σ (put σ i s') :=
  .single (.session i (hs ▸ h))

variable [Fintype ι]

instance (σ : State ι) (i : ι) (id : String) : Decidable (σ.Locked i id) :=
  inferInstanceAs (Decidable (∃ j, j ≠ i ∧ id ∈ (σ.sessions j).locks))

/-- No other transaction has written a row that this one has to wait for. -/
def Clear (σ : State ι) (i : ι) (t : LedgerTransaction) : Prop :=
  ∀ j, j ≠ i → (σ.sessions j).progress = .running → ∀ w ∈ (σ.sessions j).writes,
    ¬ Clash t w.transaction

instance (σ : State ι) (i : ι) (t : LedgerTransaction) : Decidable (Clear σ i t) :=
  inferInstanceAs (Decidable (∀ _ : ι, _))

/-- One turn of a transaction: its next step, its end, or a wait. -/
def turn (σ : State ι) (i : ι) : State ι :=
  match σ.sessions i with
  | ⟨.pure r, none, _, writes, .running⟩ =>
    if (σ.db.view writes).BalancedFor writes then
      ⟨σ.db.view writes, Function.update σ.sessions i ⟨.pure r, none, [], writes, .committed⟩⟩
    else put σ i ⟨.pure r, none, [], [], .rolledBack⟩
  | ⟨.throw e, none, _, _, .running⟩ => put σ i ⟨.throw e, none, [], [], .rolledBack⟩
  | ⟨.call (.lockAccounts ids) k, none, locks, writes, .running⟩ =>
    put σ i ⟨.call (.lockAccounts ids) k, some (ids, .empty), locks, writes, .running⟩
  | ⟨.call (.lockAccounts ids) k, some (id :: rest, rows), locks, writes, .running⟩ =>
    match (σ.db.view writes).accounts.get id with
    | none => put σ i ⟨.call (.lockAccounts ids) k, some (rest, rows), locks, writes, .running⟩
    | some a =>
      if σ.Locked i id then σ
      else
        put σ i ⟨.call (.lockAccounts ids) k, some (rest, rows.set id a), id :: locks, writes, .running⟩
  | ⟨.call (.lockAccounts _) k, some ([], rows), locks, writes, .running⟩ =>
    put σ i ⟨k (.ok rows), none, locks, writes, .running⟩
  | ⟨.call (.persist t es cs) k, none, locks, writes, .running⟩ =>
    if (σ.db.view writes).Admits ⟨t, es, cs⟩ then
      if (∀ c ∈ cs, ¬ σ.Locked i c.id) ∧ Clear σ i t then
        put σ i ⟨k (.ok ()), none, cs.map (·.id) ++ locks, writes ++ [⟨t, es, cs⟩], .running⟩
      else σ
    else put σ i ⟨.call (.persist t es cs) k, none, [], [], .rolledBack⟩
  | ⟨.call q k, none, locks, writes, .running⟩ =>
    match readAnswer q (σ.db.view writes) with
    | some a => put σ i ⟨k (.ok a), none, locks, writes, .running⟩
    | none => σ
  | _ => σ

def turns (σ : State ι) (is : List ι) : State ι := is.foldl turn σ

theorem turn_runs (σ : State ι) (i : ι) : Runs σ (turn σ i) := by
  unfold turn
  split
  · next hs =>
    split
    · next hbalanced => exact .single (.commit i hs hbalanced)
    · exact put_runs hs .rollBack
  · next hs => exact put_runs hs .rollBack
  · next hs => exact put_runs hs .beginLock
  · next hs =>
    split
    · next hrow => exact put_runs hs (.skipRow hrow)
    · next hrow =>
      split
      · exact .refl
      · next hfree => exact put_runs hs (.lockRow hrow hfree)
  · next hs => exact put_runs hs .endLock
  · next hs =>
    split
    · next hadmits =>
      split
      · next hclear =>
        refine put_runs hs (.write hadmits hclear.1 ?_)
        rintro u ⟨j, hj, hrunning, w, hw, rfl⟩
        exact hclear.2 j hj hrunning w hw
      · exact .refl
    · exact put_runs hs .rollBack
  · next hs =>
    split
    · next hread => exact put_runs hs (.read hread)
    · exact .refl
  · exact .refl

/-- Whatever the order of the turns, they are a run. -/
theorem turns_runs (σ : State ι) (is : List ι) : Runs σ (turns σ is) := by
  induction is generalizing σ with
  | nil => exact .refl
  | cons i is ih => exact (turn_runs σ i).trans (ih (turn σ i))

end BaasConnector.Ledger.Turns
