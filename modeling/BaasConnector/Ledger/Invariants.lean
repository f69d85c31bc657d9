import Mathlib
import BaasConnector.Ledger.MemoryStore
import BaasConnector.Lib.Grouping

namespace BaasConnector.Ledger.Invariants

open BaasConnector.Lib.Keyed BaasConnector.Ledger.Types BaasConnector.Ledger.Engine
open BaasConnector.Ledger.MemoryStore

structure InvariantViolation where
  invariant : String
  detail : String
deriving DecidableEq, Repr

/-- What the entries of one direction add up to. -/
def sumOf (direction : EntryDirection) (entries : List LedgerEntry) : Int :=
  sumDirection direction (entries.map (·.toLedgerEntryInput))

def transactionBalanced (entries : List LedgerEntry) : List InvariantViolation :=
  (group (fun entry => some entry.transactionId) entries).rows.flatMap fun row =>
    let transactionId := row.1
    let debits := sumOf .DEBIT row.2
    let credits := sumOf .CREDIT row.2
    if debits = credits then []
    else
      [⟨"transaction_balanced", s!"Transacao {transactionId}: debitos {debits} e creditos {credits}"⟩]

def ledgerBalanced (entries : List LedgerEntry) : List InvariantViolation :=
  let debits := sumOf .DEBIT entries
  let credits := sumOf .CREDIT entries
  if debits = credits then []
  else [⟨"ledger_balanced", s!"Razao inteiro: debitos {debits} e creditos {credits}"⟩]

structure Expected where
  dp : Int
  cp : Int
  dpend : Int
  cpend : Int
deriving DecidableEq, Repr

def Expected.zero : Expected := ⟨0, 0, 0, 0⟩

def Expected.add (acc : Expected) (entry : LedgerEntry) : Expected :=
  match entry.phase, entry.direction with
  | .POSTED, .DEBIT => { acc with dp := acc.dp + entry.amountCents }
  | .POSTED, .CREDIT => { acc with cp := acc.cp + entry.amountCents }
  | .PENDING, .DEBIT => { acc with dpend := acc.dpend + entry.amountCents }
  | .PENDING, .CREDIT => { acc with cpend := acc.cpend + entry.amountCents }
  | .VOID, _ => acc

/-- What the counters of every account should be, from the entries alone. -/
def expected (entries : List LedgerEntry) : Table String Expected :=
  entries.foldl (fun acc entry =>
    acc.set entry.accountId (((acc.get entry.accountId).getD .zero).add entry)) .empty

def postedCountersMatchEntries (accounts : List LedgerAccount) (entries : List LedgerEntry) :
    List InvariantViolation :=
  accounts.flatMap fun account =>
    let want := ((expected entries).get account.id).getD .zero
    let code := account.code
    let debits := account.debitsPosted
    let credits := account.creditsPosted
    let dp := want.dp
    let cp := want.cp
    if debits ≠ dp ∨ credits ≠ cp then
      [⟨"posted_counters_match_entries",
        s!"Conta {code}: contadores postados ({debits}/{credits}) divergem da soma dos lancamentos ({dp}/{cp})"⟩]
    else []

def entryAmountPositive (entries : List LedgerEntry) : List InvariantViolation :=
  entries.flatMap fun entry =>
    let id := entry.id
    let cents := entry.amountCents
    if cents ≤ 0 then [⟨"entry_amount_positive", s!"Lancamento {id} com valor {cents}"⟩] else []

def noNegativeBalance (accounts : List LedgerAccount) : List InvariantViolation :=
  accounts.flatMap fun account =>
    if account.allowsNegative then []
    else
      let code := account.code
      let posted := match account.normalBalance with
        | .CREDIT => account.creditsPosted - account.debitsPosted
        | .DEBIT => account.debitsPosted - account.creditsPosted
      if posted < 0 then [⟨"no_negative_balance", s!"Conta {code} com saldo postado {posted}"⟩] else []

def checkInvariants (accounts : List LedgerAccount) (entries : List LedgerEntry) :
    List InvariantViolation :=
  transactionBalanced entries ++ ledgerBalanced entries ++
    postedCountersMatchEntries accounts entries ++ entryAmountPositive entries ++
    noNegativeBalance accounts

def allAccounts (s : LedgerStore) : List LedgerAccount := s.accounts.table.values

def allEntries (s : LedgerStore) : List LedgerEntry := s.entries.values.flatten

/-- What the entries of one direction move on one account. -/
def sumOn (accountId : String) (direction : EntryDirection) (entries : List LedgerEntry) : Int :=
  sumOf direction (entries.filter (·.accountId = accountId))

def EntriesBalanced (entries : List LedgerEntry) : Prop := sumOf .DEBIT entries = sumOf .CREDIT entries

variable {direction : EntryDirection} {accountId : String}

theorem sumDirection_cons (direction : EntryDirection) (input : LedgerEntryInput)
    (inputs : List LedgerEntryInput) :
    sumDirection direction (input :: inputs) =
      (if input.direction = direction then input.amountCents else 0) + sumDirection direction inputs := by
  unfold sumDirection
  by_cases h : input.direction = direction
  · simp [h]
  · simp [h]

theorem sumDirection_append (direction : EntryDirection) (xs ys : List LedgerEntryInput) :
    sumDirection direction (xs ++ ys) = sumDirection direction xs + sumDirection direction ys := by
  induction xs with
  | nil => simp [sumDirection]
  | cons x xs ih =>
    rw [List.cons_append, sumDirection_cons, sumDirection_cons, ih]
    omega

theorem sumOf_append (direction : EntryDirection) (xs ys : List LedgerEntry) :
    sumOf direction (xs ++ ys) = sumOf direction xs + sumOf direction ys := by
  rw [sumOf, List.map_append]
  exact sumDirection_append direction _ _

theorem sumOf_flatten (direction : EntryDirection) (ls : List (List LedgerEntry)) :
    sumOf direction ls.flatten = (ls.map (sumOf direction)).sum := by
  induction ls with
  | nil => rfl
  | cons es ls ih => rw [List.flatten_cons, sumOf_append, ih, List.map_cons, List.sum_cons]

theorem sumOn_flatten (accountId : String) (direction : EntryDirection) (ls : List (List LedgerEntry)) :
    sumOn accountId direction ls.flatten = (ls.map (sumOn accountId direction)).sum := by
  rw [sumOn, List.filter_flatten, sumOf_flatten, List.map_map]
  rfl

theorem balanced_flatten {ls : List (List LedgerEntry)} (h : ∀ es ∈ ls, EntriesBalanced es) :
    EntriesBalanced ls.flatten := by
  rw [EntriesBalanced, sumOf_flatten, sumOf_flatten]
  exact congrArg List.sum (List.map_congr_left h)

theorem sumOf_nonneg {entries : List LedgerEntry} (h : ∀ e ∈ entries, 0 < e.amountCents) :
    0 ≤ sumOf direction entries := by
  induction entries with
  | nil => exact Int.le_refl 0
  | cons e entries ih =>
    have hrest := ih fun e' he' => h e' (List.mem_cons_of_mem _ he')
    have he := h e List.mem_cons_self
    rw [sumOf, List.map_cons, sumDirection_cons]
    rw [sumOf] at hrest
    split <;> omega

theorem sumOf_pos {entries : List LedgerEntry} (h : ∀ e ∈ entries, 0 < e.amountCents) {e : LedgerEntry}
    (he : e ∈ entries) : 0 < sumOf e.direction entries := by
  induction entries with
  | nil => cases he
  | cons e' entries ih =>
    have hpos := h e' List.mem_cons_self
    have hrest : ∀ e ∈ entries, 0 < e.amountCents := fun e he => h e (List.mem_cons_of_mem e' he)
    rw [sumOf, List.map_cons, sumDirection_cons]
    change 0 < _ + sumOf e.direction entries
    obtain rfl | he := List.mem_cons.mp he
    · have hnonneg : 0 ≤ sumOf e.direction entries := sumOf_nonneg hrest
      rw [if_pos rfl]
      omega
    · have htail := ih hrest he
      split <;> omega

/-- Where all amounts are positive and nothing adds up to anything, there is no entry. -/
theorem eq_nil_of_sumOn {entries : List LedgerEntry} (h : ∀ e ∈ entries, 0 < e.amountCents)
    (hzero : ∀ e ∈ entries, ∀ direction, sumOn e.accountId direction entries = 0) : entries = [] := by
  apply List.eq_nil_iff_forall_not_mem.mpr
  intro e he
  have hon : e ∈ entries.filter (·.accountId = e.accountId) := List.mem_filter.mpr ⟨he, by simp⟩
  have hpos := sumOf_pos (fun e' he' => h e' (List.mem_of_mem_filter he')) hon
  have hsum := hzero e he e.direction
  rw [sumOn] at hsum
  omega

theorem transactionBalanced_eq_nil {entries : List LedgerEntry}
    (h : ∀ id, EntriesBalanced (entries.filter (·.transactionId = id))) :
    transactionBalanced entries = [] := by
  rw [transactionBalanced, List.flatMap_eq_nil_iff]
  intro row hrow
  rw [group_rows, List.mem_map] at hrow
  obtain ⟨id, -, rfl⟩ := hrow
  have hunder : under (fun entry => some entry.transactionId) id entries =
      entries.filter (·.transactionId = id) := by
    apply List.filter_congr
    intro e _
    simp
  exact if_pos (by rw [hunder]; exact h id)

theorem expected_concat (entries : List LedgerEntry) (entry : LedgerEntry) :
    expected (entries ++ [entry]) = (expected entries).set entry.accountId
      ((((expected entries).get entry.accountId).getD .zero).add entry) := by
  rw [expected, List.foldl_append]
  rfl

/-- The posted side of what is expected of an account is the sum of its posted entries. -/
theorem expected_posted (entries : List LedgerEntry) (accountId : String) :
    (((expected entries).get accountId).getD .zero).dp =
        sumOn accountId .DEBIT (entries.filter (·.phase = .POSTED)) ∧
      (((expected entries).get accountId).getD .zero).cp =
        sumOn accountId .CREDIT (entries.filter (·.phase = .POSTED)) := by
  induction entries using List.reverseRecOn with
  | nil => exact ⟨rfl, rfl⟩
  | append_singleton entries entry ih =>
    rw [expected_concat, Table.get_set]
    by_cases ha : accountId = entry.accountId
    · subst ha
      rw [if_pos rfl, Option.getD_some]
      cases hp : entry.phase <;> cases hd : entry.direction <;>
        simp [Expected.add, hp, hd, ih, sumOn, sumOf, sumDirection_append, sumDirection_cons] <;>
        simp [sumDirection]
    · rw [if_neg ha]
      have hskip : ([entry].filter (·.phase = .POSTED)).filter (·.accountId = accountId) = [] := by
        rw [List.filter_filter]
        simp [Ne.symm ha]
      simpa [sumOn, List.filter_append, hskip] using ih

theorem postedCountersMatchEntries_eq_nil {accounts : List LedgerAccount} {entries : List LedgerEntry} :
    postedCountersMatchEntries accounts entries = [] ↔ ∀ a ∈ accounts,
      a.debitsPosted = sumOn a.id .DEBIT (entries.filter (·.phase = .POSTED)) ∧
      a.creditsPosted = sumOn a.id .CREDIT (entries.filter (·.phase = .POSTED)) := by
  rw [postedCountersMatchEntries, List.flatMap_eq_nil_iff]
  refine forall₂_congr fun a _ => ?_
  obtain ⟨hdp, hcp⟩ := expected_posted entries a.id
  rw [← hdp, ← hcp]
  constructor
  · intro h
    by_contra hne
    rw [not_and_or] at hne
    exact absurd ((if_pos hne).symm.trans h) (List.cons_ne_nil _ _)
  · rintro ⟨hd, hc⟩
    exact if_neg (by simp [hd, hc])

theorem entryAmountPositive_eq_nil {entries : List LedgerEntry}
    (h : ∀ e ∈ entries, 0 < e.amountCents) : entryAmountPositive entries = [] := by
  rw [entryAmountPositive, List.flatMap_eq_nil_iff]
  intro e he
  have hpos := h e he
  exact if_neg (by omega)

theorem noNegativeBalance_eq_nil {accounts : List LedgerAccount}
    (h : ∀ a ∈ accounts, a.allowsNegative = false → 0 ≤ (computeBalances a).posted) :
    noNegativeBalance accounts = [] := by
  rw [noNegativeBalance, List.flatMap_eq_nil_iff]
  intro a ha
  cases hn : a.allowsNegative with
  | true => rfl
  | false =>
    have hpos := h a ha hn
    cases hb : a.normalBalance <;> simp only [computeBalances, hb] at hpos <;> simp <;> omega

end BaasConnector.Ledger.Invariants
