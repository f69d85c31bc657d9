import BaasConnector.Ledger.Availability

namespace BaasConnector.Ledger.Movements

open BaasConnector.Lib.Keyed BaasConnector.Ledger.Types BaasConnector.Ledger.Engine
open BaasConnector.Ledger.MemoryStore BaasConnector.Ledger.Outcomes BaasConnector.Ledger.Shadow
open BaasConnector.Ledger.Holds BaasConnector.Ledger.Adjustments BaasConnector.Ledger.Receipts
open BaasConnector.Ledger.ChartOfAccounts BaasConnector.Ledger.Invariants BaasConnector.Ledger.Counters
open BaasConnector.Ledger.Books BaasConnector.Ledger.Reachable BaasConnector.Ledger.Calls
open BaasConnector.Ledger.Consistency BaasConnector.Ledger.Availability

/-- A transaction of the ledger, as the account of the customer sees it. -/
structure LedgerMovement where
  entryId : String
  transactionId : String
  type : LedgerTransactionType
  direction : EntryDirection
  amountCents : Int
  effectiveAt : Int
deriving DecidableEq, Repr

def earlier (a b : LedgerEntry) : Prop :=
  a.effectiveAt < b.effectiveAt ∨ (a.effectiveAt = b.effectiveAt ∧ a.sequence ≤ b.sequence)

instance : DecidableRel earlier := fun a b =>
  inferInstanceAs (Decidable (a.effectiveAt < b.effectiveAt ∨
    (a.effectiveAt = b.effectiveAt ∧ a.sequence ≤ b.sequence)))

def entriesInWindow (s : LedgerStore) (ledgerAccountId : String) (start finish : Int) : List LedgerEntry :=
  ((allEntries s).filter fun entry => entry.accountId = ledgerAccountId ∧ entry.phase ≠ .PENDING ∧
    start ≤ entry.effectiveAt ∧ entry.effectiveAt ≤ finish).insertionSort earlier

def signed (input : LedgerEntryInput) : Int :=
  if input.direction = .CREDIT then input.amountCents else -input.amountCents

/-- Entries of one transaction as one movement. The collation of ids is the runtime's. -/
def movementOf (localeCompare : String → String → Int) (s : LedgerStore) (transactionId : String)
    (doGrupo : List LedgerEntry) : Option LedgerMovement := do
  let transaction ← s.transactions.get transactionId
  let ordenados := doGrupo.insertionSort fun a b => localeCompare a.id b.id ≤ 0
  let first ← ordenados.head?
  let total := ordenados.foldl (fun soma entry => soma + signed entry.toLedgerEntryInput) 0
  return {
    entryId := first.id
    transactionId
    type := transaction.type
    direction := if 0 ≤ total then .CREDIT else .DEBIT
    amountCents := if total < 0 then -total else total
    effectiveAt := first.effectiveAt }

def movements (localeCompare : String → String → Int) (s : LedgerStore) (ledgerAccountId : String)
    (start finish : Int) : List LedgerMovement :=
  let posted := (entriesInWindow s ledgerAccountId start finish).filter (·.phase = .POSTED)
  let porTransacao := group (fun entry => some entry.transactionId) posted
  (porTransacao.rows.filterMap fun row => movementOf localeCompare s row.1 row.2).insertionSort
    fun a b => localeCompare a.entryId b.entryId ≤ 0

def LedgerMovement.signedCents (m : LedgerMovement) : Int :=
  if m.direction = .CREDIT then m.amountCents else -m.amountCents

section Sums

variable {K V : Type} [DecidableEq K] {key : V → Option K}

/-- A grouping adds up to what its values add up to. -/
theorem sum_groups (f : V → Int) (vs : List V) (hkey : ∀ v ∈ vs, (key v).isSome) :
    ((group key vs).rows.map fun r => (r.2.map f).sum).sum = (vs.map f).sum := by
  induction vs using List.reverseRecOn with
  | nil => rfl
  | append_singleton vs v ih =>
    have hvs := ih fun w hw => hkey w (List.mem_append_left _ hw)
    obtain ⟨k, hk⟩ := Option.isSome_iff_exists.mp (hkey v (List.mem_append_right _ List.mem_cons_self))
    rw [group_concat, hk]
    have hsum := sum_store (fun es : List V => (es.map f).sum) k
      ((((group key vs).get k).getD []) ++ [v]) (group key vs).rows
    have hold : ((lookup k (group key vs).rows).map fun es => (es.map f).sum).getD 0 =
        ((((group key vs).get k).getD []).map f).sum := by
      unfold Table.get
      cases lookup k (group key vs).rows <;> rfl
    rw [hold, hvs, List.map_append, List.sum_append] at hsum
    rw [List.map_append, List.sum_append]
    change ((store k _ (group key vs).rows).map fun r => (r.2.map f).sum).sum = _
    omega

end Sums

variable {s : LedgerStore} {accountId : String} {start finish : Int} {inputs : List LedgerEntryInput}
  {localeCompare : String → String → Int}

theorem signedCents_movementOf {transactionId : String} {es : List LedgerEntry} (hne : es ≠ [])
    (ht : (s.transactions.get transactionId).isSome) :
    ∃ m, movementOf localeCompare s transactionId es = some m ∧
      m.signedCents = (es.map fun e => signed e.toLedgerEntryInput).sum := by
  obtain ⟨t, ht⟩ := Option.isSome_iff_exists.mp ht
  have hperm := List.perm_insertionSort (fun a b : LedgerEntry => localeCompare a.id b.id ≤ 0) es
  have htotal : (es.insertionSort fun a b => localeCompare a.id b.id ≤ 0).foldl
      (fun soma entry => soma + signed entry.toLedgerEntryInput) 0 =
      (es.map fun e => signed e.toLedgerEntryInput).sum := by
    rw [← (hperm.map _).sum_eq, List.sum_eq_foldl, List.foldl_map]
  unfold movementOf
  simp only [ht, htotal, Option.bind_eq_bind, Option.bind_some]
  cases hsorted : es.insertionSort fun a b => localeCompare a.id b.id ≤ 0 with
  | nil => exact absurd (hsorted ▸ hperm).nil_eq.symm hne
  | cons first rest =>
    refine ⟨_, rfl, ?_⟩
    unfold LedgerMovement.signedCents
    dsimp only
    split <;> split <;> simp_all

/-- The entry is a posted one of the account, effective in the window. -/
def InWindow (accountId : String) (start finish : Int) (e : LedgerEntry) : Prop :=
  e.accountId = accountId ∧ e.phase = .POSTED ∧ start ≤ e.effectiveAt ∧ e.effectiveAt ≤ finish

instance (accountId : String) (start finish : Int) (e : LedgerEntry) :
    Decidable (InWindow accountId start finish e) := inferInstanceAs (Decidable (_ ∧ _ ∧ _ ∧ _))

def windowed (accountId : String) (start finish : Int) (es : List LedgerEntry) : Int :=
  ((es.filter (InWindow accountId start finish)).map fun e => signed e.toLedgerEntryInput).sum

/-- What the entries of the ledger move on the account within the window. -/
def moved (s : LedgerStore) (accountId : String) (start finish : Int) : Int :=
  s.entries.total fun _ es => windowed accountId start finish es

theorem windowed_flatten (ls : List (List LedgerEntry)) :
    windowed accountId start finish ls.flatten = (ls.map (windowed accountId start finish)).sum := by
  induction ls with
  | nil => rfl
  | cons es ls ih =>
    rw [List.flatten_cons, List.map_cons, List.sum_cons, ← ih]
    unfold windowed
    rw [List.filter_append, List.map_append, List.sum_append]

/-- The movements of a window add up to its posted entries. -/
theorem movements_sum (h : Sound s) :
    ((movements localeCompare s accountId start finish).map (·.signedCents)).sum =
      moved s accountId start finish := by
  have hposted : ((entriesInWindow s accountId start finish).filter (·.phase = .POSTED)).Perm
      ((allEntries s).filter (InWindow accountId start finish)) := by
    refine ((List.perm_insertionSort earlier _).filter _).trans ?_
    rw [List.filter_filter]
    refine List.Perm.of_eq (List.filter_congr fun e _ => ?_)
    rw [Bool.eq_iff_iff, Bool.and_eq_true, decide_eq_true_eq, decide_eq_true_eq, decide_eq_true_eq]
    constructor
    · rintro ⟨hphase, hid, -, hwindow⟩
      exact ⟨hid, hphase, hwindow⟩
    · rintro ⟨hid, hphase, hwindow⟩
      exact ⟨hphase, hid, by simp [hphase], hwindow⟩
  have hstored : ∀ e ∈ (entriesInWindow s accountId start finish).filter (·.phase = .POSTED),
      (s.transactions.get e.transactionId).isSome := by
    intro e he
    have hmem := List.mem_of_mem_filter (hposted.mem_iff.mp he)
    obtain ⟨es, hes, hin⟩ := List.mem_flatten.mp hmem
    obtain ⟨k, hk⟩ := entries_get hes
    rw [(h.owned k es hk e hin).1]
    exact h.stored k es hk
  unfold movements
  generalize (entriesInWindow s accountId start finish).filter (·.phase = .POSTED) = posted at hposted hstored
  have hsorted := List.perm_insertionSort
    (fun a b : LedgerMovement => localeCompare a.entryId b.entryId ≤ 0)
    ((group (fun e : LedgerEntry => some e.transactionId) posted).rows.filterMap fun row =>
      movementOf localeCompare s row.1 row.2)
  have hkeyed : ∀ e ∈ posted, (some e.transactionId : Option String).isSome := fun _ _ => rfl
  have hgroups := sum_groups (fun e => signed e.toLedgerEntryInput) posted hkeyed
  have hrows : ∀ r ∈ (group (fun e : LedgerEntry => some e.transactionId) posted).rows,
      r.2 ≠ [] ∧ (s.transactions.get r.1).isSome := by
    intro r hr
    rw [group_rows, List.mem_map] at hr
    obtain ⟨k, hk, rfl⟩ := hr
    obtain ⟨e, he, hkey⟩ := mem_groupKeys.mp hk
    refine ⟨under_ne_nil hk, ?_⟩
    rw [← Option.some.inj hkey]
    exact hstored e he
  have hmovements : ∀ rows : List (String × List LedgerEntry),
      (∀ r ∈ rows, r.2 ≠ [] ∧ (s.transactions.get r.1).isSome) →
      ((rows.filterMap fun row => movementOf localeCompare s row.1 row.2).map (·.signedCents)).sum =
        (rows.map fun r => (r.2.map fun e => signed e.toLedgerEntryInput).sum).sum := by
    intro rows hall
    induction rows with
    | nil => rfl
    | cons r rows ih =>
      obtain ⟨hne, ht⟩ := hall r List.mem_cons_self
      obtain ⟨m, hm, hsigned⟩ := signedCents_movementOf hne ht
      rw [List.filterMap_cons_some (f := fun row : String × List LedgerEntry =>
          movementOf localeCompare s row.1 row.2) hm, List.map_cons, List.sum_cons,
            List.map_cons, List.sum_cons,
        hsigned, ih fun r hr => hall r (List.mem_cons_of_mem _ hr)]
  have hall : windowed accountId start finish (allEntries s) = moved s accountId start finish := by
    rw [allEntries, windowed_flatten, moved, Table.total, Table.values, List.map_map]
    rfl
  dsimp only
  rw [(hsorted.map _).sum_eq, hmovements _ hrows, hgroups, (hposted.map _).sum_eq]
  exact hall

end BaasConnector.Ledger.Movements
