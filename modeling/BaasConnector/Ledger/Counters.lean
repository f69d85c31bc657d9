import BaasConnector.Ledger.Invariants
import BaasConnector.Ledger.Receipts

namespace BaasConnector.Ledger.Counters

open BaasConnector.Lib.Keyed BaasConnector.Ledger.Types BaasConnector.Ledger.Engine
open BaasConnector.Ledger.MemoryStore BaasConnector.Ledger.Outcomes BaasConnector.Ledger.Holds
open BaasConnector.Ledger.Invariants

/-- One of the four counters of an account. -/
def counter (a : LedgerAccount) : PostPhase → EntryDirection → Int
  | .POSTED, .DEBIT => a.debitsPosted
  | .POSTED, .CREDIT => a.creditsPosted
  | .PENDING, .DEBIT => a.debitsPending
  | .PENDING, .CREDIT => a.creditsPending

def partOf (d : CounterDelta) : PostPhase → EntryDirection → Int
  | .POSTED, .DEBIT => d.debitsPosted
  | .POSTED, .CREDIT => d.creditsPosted
  | .PENDING, .DEBIT => d.debitsPending
  | .PENDING, .CREDIT => d.creditsPending

/-- What the entries of one direction put on one account. -/
def inputsOn (accountId : String) (direction : EntryDirection) (inputs : List LedgerEntryInput) : Int :=
  sumDirection direction (inputs.filter (·.accountId = accountId))

/-- What a list of deltas changes in one counter of one account. -/
def changeOn (delta : LedgerEntryInput → CounterDelta) (accountId : String) (phase : PostPhase)
    (direction : EntryDirection) (inputs : List LedgerEntryInput) : Int :=
  ((inputs.filter (·.accountId = accountId)).map fun i => partOf (delta i) phase direction).sum

theorem counter_applyDelta (a : LedgerAccount) (d : CounterDelta) (phase : PostPhase)
    (direction : EntryDirection) :
    counter (applyDelta a d) phase direction = counter a phase direction + partOf d phase direction := by
  cases phase <;> cases direction <;> rfl

theorem deltaFor_partOf (posting phase : PostPhase) (direction : EntryDirection) (i : LedgerEntryInput) :
    partOf (deltaFor posting i) phase direction =
      if phase = posting ∧ i.direction = direction then i.amountCents else 0 := by
  cases posting <;> cases phase <;> cases direction <;> cases hi : i.direction <;>
    simp [deltaFor, hi, partOf, zeroDelta]

theorem resolveDelta_partOf (commit : Bool) (phase : PostPhase) (direction : EntryDirection)
    (i : LedgerEntryInput) :
    partOf (resolveDelta commit i) phase direction =
      if i.direction = direction then
        match phase with
        | .PENDING => -i.amountCents
        | .POSTED => if commit then i.amountCents else 0
      else 0 := by
  cases commit <;> cases phase <;> cases direction <;> cases hi : i.direction <;>
    simp [resolveDelta, hi, partOf, zeroDelta]

theorem changeOn_deltaFor (posting phase : PostPhase) (direction : EntryDirection) (accountId : String)
    (inputs : List LedgerEntryInput) :
    changeOn (deltaFor posting) accountId phase direction inputs =
      if phase = posting then inputsOn accountId direction inputs else 0 := by
  unfold changeOn inputsOn
  induction inputs.filter (·.accountId = accountId) with
  | nil => simp [sumDirection]
  | cons i rest ih =>
    rw [List.map_cons, List.sum_cons, ih, sumDirection_cons, deltaFor_partOf]
    by_cases hp : phase = posting <;> simp [hp]

theorem changeOn_resolveDelta (commit : Bool) (phase : PostPhase) (direction : EntryDirection)
    (accountId : String) (inputs : List LedgerEntryInput) :
    changeOn (resolveDelta commit) accountId phase direction inputs =
      match phase with
      | .PENDING => -inputsOn accountId direction inputs
      | .POSTED => if commit then inputsOn accountId direction inputs else 0 := by
  unfold changeOn inputsOn
  induction inputs.filter (·.accountId = accountId) with
  | nil => cases phase <;> simp [sumDirection]
  | cons i rest ih =>
    rw [List.map_cons, List.sum_cons, ih, sumDirection_cons, resolveDelta_partOf]
    cases phase <;> cases commit <;> by_cases hd : i.direction = direction <;> simp [hd] <;>
      omega

/-- An account after a list of deltas: nothing but its counters differs, and
no balance has turned negative. -/
structure Moved (delta : LedgerEntryInput → CounterDelta) (inputs : List LedgerEntryInput)
    (before after : LedgerAccount) : Prop where
  id : after.id = before.id
  normalBalance : after.normalBalance = before.normalBalance
  allowsNegative : after.allowsNegative = before.allowsNegative
  counters : ∀ phase direction, counter after phase direction =
    counter before phase direction + changeOn delta before.id phase direction inputs
  guarded : violatesOverdraftGuard before = false → violatesOverdraftGuard after = false

variable {delta : LedgerEntryInput → CounterDelta} {inputs : List LedgerEntryInput}

theorem Moved.of_untouched {a : LedgerAccount} (h : ∀ i ∈ inputs, i.accountId ≠ a.id) :
    Moved delta inputs a a := by
  refine ⟨rfl, rfl, rfl, fun phase direction => ?_, fun h => h⟩
  have hnil : inputs.filter (·.accountId = a.id) = [] := by
    apply List.filter_eq_nil_iff.mpr
    intro i hi
    simpa using h i hi
  simp [changeOn, hnil]

/-- A list of guarded deltas moves every account it is given. -/
theorem applyDeltas_moved {accounts after : Accounts}
    (hkeyed : ∀ k a, accounts.get k = some a → a.id = k)
    (h : applyDeltas delta inputs accounts = some after) (k : String) :
    (accounts.get k = none ∧ after.get k = none) ∨
      ∃ before now, accounts.get k = some before ∧ after.get k = some now ∧
        Moved delta inputs before now := by
  induction inputs generalizing accounts with
  | nil =>
    simp only [applyDeltas, Option.some.injEq] at h
    subst h
    cases hk : accounts.get k with
    | none => exact .inl ⟨rfl, rfl⟩
    | some a => exact .inr ⟨a, a, rfl, rfl, Moved.of_untouched (by simp)⟩
  | cons input inputs ih =>
    rw [applyDeltas] at h
    cases hb : accounts.get input.accountId with
    | none => simp [hb] at h
    | some b =>
      simp only [hb] at h
      by_cases hv : violatesOverdraftGuard (applyDelta b (delta input)) = true
      · simp [hv] at h
      · rw [if_neg hv] at h
        have hid : b.id = input.accountId := hkeyed _ _ hb
        have hkeyed' : ∀ k a, (accounts.set input.accountId (applyDelta b (delta input))).get k =
            some a → a.id = k := by
          intro k a ha
          rw [Table.get_set] at ha
          by_cases hk : k = input.accountId
          · rw [if_pos hk, Option.some.injEq] at ha
            rw [← ha, hk]
            exact hid
          · rw [if_neg hk] at ha
            exact hkeyed k a ha
        have hstep := ih hkeyed' h
        rw [Table.get_set] at hstep
        by_cases hk : k = input.accountId
        · rw [if_pos hk] at hstep
          obtain ⟨hnone, -⟩ | ⟨mid, now, hmid, hnow, hm⟩ := hstep
          · cases hnone
          · rw [Option.some.injEq] at hmid
            subst hmid
            refine .inr ⟨b, now, by rw [hk, hb], hnow, hm.id, hm.normalBalance, hm.allowsNegative,
              fun phase direction => ?_, fun _ => hm.guarded (by simpa using hv)⟩
            have hc := hm.counters phase direction
            have hhead : (input :: inputs).filter (·.accountId = b.id) =
                input :: inputs.filter (·.accountId = b.id) := by simp [hid]
            have hsame : (applyDelta b (delta input)).id = b.id := rfl
            rw [counter_applyDelta, hsame] at hc
            rw [hc, changeOn, changeOn, hhead, List.map_cons, List.sum_cons]
            omega
        · rw [if_neg hk] at hstep
          obtain hnone | ⟨before, now, hbefore, hnow, hm⟩ := hstep
          · exact .inl hnone
          · refine .inr ⟨before, now, hbefore, hnow, hm.id, hm.normalBalance, hm.allowsNegative,
              fun phase direction => ?_, hm.guarded⟩
            have hne : input.accountId ≠ before.id := by
              rw [hkeyed _ _ hbefore]
              exact Ne.symm hk
            have hskip : (input :: inputs).filter (·.accountId = before.id) =
                inputs.filter (·.accountId = before.id) := by simp [hne]
            rw [hm.counters, changeOn, changeOn, hskip]

theorem mem_lockOrder {id : String} : id ∈ lockOrder inputs ↔ ∃ i ∈ inputs, i.accountId = id := by
  rw [lockOrder, List.mem_insertionSort, List.mem_dedup, List.mem_map]

theorem applyDeltas_keyed {accounts after : Accounts}
    (hkeyed : ∀ k a, accounts.get k = some a → a.id = k)
    (h : applyDeltas delta inputs accounts = some after) : ∀ k a, after.get k = some a → a.id = k := by
  intro k a ha
  obtain ⟨-, hnone⟩ | ⟨b, c, hb, hc, hm⟩ := applyDeltas_moved hkeyed h k
  · rw [hnone] at ha
    cases ha
  · rw [hc, Option.some.injEq] at ha
    rw [← ha, hm.id]
    exact hkeyed k b hb

theorem keyed_nodup {accounts : Accounts} (hkeyed : ∀ k a, accounts.get k = some a → a.id = k) :
    (accounts.values.map LedgerAccount.id).Nodup := by
  have hmap : accounts.values.map LedgerAccount.id = accounts.rows.map Prod.fst := by
    rw [Table.values, List.map_map]
    apply List.map_congr_left
    intro r hr
    exact hkeyed r.1 r.2 ((lookup_eq_some accounts.nodup).mpr hr)
  rw [hmap]
  exact accounts.nodup

/-- The accounts of a store after the deltas of locked accounts are written back. -/
theorem setAccounts_moved {s : LedgerStore} {after : Accounts}
    (h : applyDeltas delta inputs (s.lockAccounts (lockOrder inputs)) = some after) {k : String}
    {now : LedgerAccount} (hnow : (LedgerStore.setAccounts s.accounts after.values).get k = some now) :
    ∃ before, s.accounts.get k = some before ∧ Moved delta inputs before now := by
  have hkeyed : ∀ k a, (s.lockAccounts (lockOrder inputs)).get k = some a → a.id = k := by
    intro k a ha
    rw [lockAccounts_get] at ha
    split at ha
    · exact Rows.key_of_get ha
    · cases ha
  have hafter := applyDeltas_keyed hkeyed h
  have hkeys := keyed_nodup hafter
  obtain ⟨hlocked, hnone⟩ | ⟨before, a, hbefore, ha, hm⟩ := applyDeltas_moved hkeyed h k
  · have hout : ∀ v ∈ after.values, v.id ≠ k := by
      intro v hv he
      obtain ⟨k', hk'⟩ := Table.mem_values.mp hv
      rw [← hafter k' v hk', he, hnone] at hk'
      cases hk'
    rw [LedgerStore.setAccounts, Rows.get_puts_of_ne _ hout] at hnow
    refine ⟨now, hnow, Moved.of_untouched fun i hi he => ?_⟩
    rw [Rows.key_of_get hnow] at he
    rw [lockAccounts_get, if_pos (mem_lockOrder.mpr ⟨i, hi, he⟩), hnow] at hlocked
    cases hlocked
  · have hmem : a ∈ after.values := Table.mem_values.mpr ⟨k, ha⟩
    have hput := Rows.get_puts_of_mem s.accounts hkeys hmem
    rw [hafter k a ha] at hput
    rw [LedgerStore.setAccounts, hput, Option.some.injEq] at hnow
    subst hnow
    rw [lockAccounts_get] at hbefore
    split at hbefore
    · exact ⟨before, hbefore, hm⟩
    · cases hbefore

/-- Accounts are never removed. -/
theorem setAccounts_isSome {s : LedgerStore} (accounts : List LedgerAccount) {k : String}
    (h : (s.accounts.get k).isSome) : ((LedgerStore.setAccounts s.accounts accounts).get k).isSome := by
  unfold LedgerStore.setAccounts
  generalize s.accounts = rows at h
  induction accounts generalizing rows with
  | nil => exact h
  | cons a accounts ih =>
    apply ih
    rw [Rows.get_put]
    split
    · rfl
    · exact h

end BaasConnector.Ledger.Counters
