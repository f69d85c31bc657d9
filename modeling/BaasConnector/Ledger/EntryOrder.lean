import BaasConnector.Lib.Totals
import BaasConnector.Ledger.Availability

namespace BaasConnector.Ledger.EntryOrder

open BaasConnector.Lib.Keyed BaasConnector.Lib.Running BaasConnector.Ledger.Types BaasConnector.Ledger.Engine
open BaasConnector.Ledger.MemoryStore BaasConnector.Ledger.Outcomes BaasConnector.Ledger.Holds
open BaasConnector.Ledger.Placement BaasConnector.Ledger.Receipts BaasConnector.Ledger.ChartOfAccounts
open BaasConnector.Ledger.Invariants BaasConnector.Ledger.Counters BaasConnector.Ledger.Books
open BaasConnector.Ledger.Reachable BaasConnector.Ledger.Calls BaasConnector.Ledger.Consistency
open BaasConnector.Ledger.Availability

variable {s : LedgerStore} {phase : PostPhase} {inputs entries : List LedgerEntryInput}
  {accounts after : Accounts} {a b : LedgerAccount} {mint : Mint} {input : PostTransactionInput}

/-- What one entry changes in the availability of an account of this nature. -/
def shift (phase : PostPhase) (normal : NormalBalance) (i : LedgerEntryInput) : Int :=
  if i.direction = reserving normal then -i.amountCents
  else match phase with
    | .PENDING => 0
    | .POSTED => i.amountCents

/-- The changes that a list of entries makes to one account, in their order. -/
def shifts (phase : PostPhase) (a : LedgerAccount) (inputs : List LedgerEntryInput) : List Int :=
  (inputs.filter (·.accountId = a.id)).map (shift phase a.normalBalance)

theorem available_applyDelta (a : LedgerAccount) (i : LedgerEntryInput) :
    available (applyDelta a (deltaFor phase i)) = available a + shift phase a.normalBalance i := by
  unfold available computeBalances applyDelta deltaFor shift zeroDelta
  cases a.normalBalance <;> cases phase <;> cases hd : i.direction <;>
    simp [reserving] <;> omega

theorem violates_iff : violatesOverdraftGuard a = false ↔ (a.allowsNegative = false → 0 ≤ available a) := by
  unfold violatesOverdraftGuard available
  cases a.allowsNegative <;> simp

theorem shifts_cons_self {i : LedgerEntryInput} (h : i.accountId = a.id) :
    shifts phase a (i :: inputs) = shift phase a.normalBalance i :: shifts phase a inputs := by
  simp [shifts, h]

theorem shifts_cons_ne {i : LedgerEntryInput} (h : i.accountId ≠ a.id) :
    shifts phase a (i :: inputs) = shifts phase a inputs := by
  simp [shifts, h]

/-- Guarded deltas go through exactly if the availability of every account stays. -/
theorem applyDeltas_isSome_iff (hkeyed : ∀ k a, accounts.get k = some a → a.id = k) :
    (applyDeltas (deltaFor phase) inputs accounts).isSome ↔
      (∀ i ∈ inputs, (accounts.get i.accountId).isSome) ∧
      ∀ k a, accounts.get k = some a → a.allowsNegative = false →
        Stays (available a) (shifts phase a inputs) := by
  induction inputs generalizing accounts with
  | nil =>
    refine iff_of_true rfl ⟨by simp, fun _ _ _ _ => ?_⟩
    trivial
  | cons i inputs ih =>
    rw [applyDeltas]
    cases hb : accounts.get i.accountId with
    | none =>
      refine iff_of_false (by simp) fun h => ?_
      have hsome := h.1 i List.mem_cons_self
      rw [hb] at hsome
      cases hsome
    | some before =>
      have hid : before.id = i.accountId := hkeyed _ _ hb
      have hshift : available (applyDelta before (deltaFor phase i)) = _ := available_applyDelta before i
      dsimp only
      by_cases hv : violatesOverdraftGuard (applyDelta before (deltaFor phase i)) = true
      · rw [if_pos hv]
        refine iff_of_false (by simp) fun h => ?_
        have hguarded : violatesOverdraftGuard (applyDelta before (deltaFor phase i)) = false := by
          refine violates_iff.mpr fun hn => ?_
          have hstays := h.2 _ before hb hn
          rw [shifts_cons_self hid.symm] at hstays
          rw [hshift]
          exact hstays.1
        rw [hguarded] at hv
        cases hv
      · rw [if_neg hv]
        have hguarded := violates_iff.mp (by simpa using hv)
        have hget : ∀ k, (accounts.set i.accountId (applyDelta before (deltaFor phase i))).get k =
            if k = i.accountId then some (applyDelta before (deltaFor phase i)) else accounts.get k :=
          fun k => Table.get_set _ _ _ _
        rw [ih fun k a ha => ?_]
        · constructor
          · rintro ⟨hexist, hstays⟩
            refine ⟨fun j hj => ?_, fun k a ha hn => ?_⟩
            · obtain rfl | hj := List.mem_cons.mp hj
              · rw [hb, Option.isSome_some]
              · have hsome := hexist j hj
                rw [hget] at hsome
                split at hsome
                · next heq => rw [heq, hb, Option.isSome_some]
                · exact hsome
            · by_cases hk : k = i.accountId
              · rw [hk, hb, Option.some.injEq] at ha
                subst ha
                rw [shifts_cons_self hid.symm]
                have hrest := hstays k (applyDelta before (deltaFor phase i)) (by rw [hget, if_pos hk]) hn
                rw [hshift] at hrest
                exact ⟨hshift ▸ hguarded hn, hrest⟩
              · have hne : i.accountId ≠ a.id := by
                  rw [hkeyed k a ha]
                  exact Ne.symm hk
                rw [shifts_cons_ne hne]
                exact hstays k a (by rw [hget, if_neg hk, ha]) hn
          · rintro ⟨hexist, hstays⟩
            refine ⟨fun j hj => ?_, fun k a ha hn => ?_⟩
            · rw [hget]
              split
              · rfl
              · exact hexist j (List.mem_cons_of_mem _ hj)
            · rw [hget] at ha
              split at ha
              · obtain rfl := Option.some.inj ha
                have hall := hstays _ before hb hn
                rw [shifts_cons_self hid.symm] at hall
                rw [hshift]
                exact hall.2
              · next hk =>
                have hne : i.accountId ≠ a.id := by
                  rw [hkeyed k a ha]
                  exact Ne.symm hk
                have hall := hstays k a ha hn
                rwa [shifts_cons_ne hne] at hall
        · rw [hget] at ha
          split at ha
          · next heq =>
            obtain rfl := Option.some.inj ha
            exact hid.trans heq.symm
          · exact hkeyed k a ha

theorem accountAfter_perm (hperm : entries.Perm inputs) (a : LedgerAccount) :
    accountAfter (deltaFor phase) entries a = accountAfter (deltaFor phase) inputs a := by
  have : RightCommutative fun (a : LedgerAccount) i => applyDelta a (deltaFor phase i) := by
    constructor
    intro a i j
    simp only [applyDelta, LedgerAccount.mk.injEq, true_and, and_true]
    refine ⟨?_, ?_, ?_, ?_⟩ <;> omega
  exact (hperm.filter _).foldl_eq a

theorem accountAfter_available (phase : PostPhase) (inputs : List LedgerEntryInput) (a : LedgerAccount) :
    available (accountAfter (deltaFor phase) inputs a) = available a + (shifts phase a inputs).sum := by
  unfold accountAfter shifts
  generalize inputs.filter (·.accountId = a.id) = own
  induction own generalizing a with
  | nil => simp
  | cons i own ih =>
    have hnormal : (applyDelta a (deltaFor phase i)).normalBalance = a.normalBalance := rfl
    rw [List.foldl_cons, ih, List.map_cons, List.sum_cons, hnormal, available_applyDelta]
    omega

/-- What the entries take from an account is what falls. -/
theorem falls_shifts (hpositive : ∀ i ∈ inputs, 0 < i.amountCents) :
    falls (shifts phase a inputs) = -taken a inputs := by
  unfold taken inputsOn
  induction inputs with
  | nil => rfl
  | cons i inputs ih =>
    have hrest := ih fun j hj => hpositive j (List.mem_cons_of_mem _ hj)
    have hi := hpositive i List.mem_cons_self
    by_cases hid : i.accountId = a.id
    · rw [shifts_cons_self hid, falls_cons, hrest, List.filter_cons_of_pos (by simpa using hid),
        sumDirection_cons]
      unfold shift
      by_cases hd : i.direction = reserving a.normalBalance
      · rw [if_pos hd, if_pos hd, if_pos (by omega)]
        omega
      · rw [if_neg hd, if_neg hd, if_neg]
        · omega
        · cases phase <;> dsimp only <;> omega
    · rw [shifts_cons_ne hid, hrest, List.filter_cons_of_neg (by simpa using hid)]

/-- The entry takes from the availability of the account. -/
def takes (a : LedgerAccount) (i : LedgerEntryInput) : Bool :=
  decide (i.accountId = a.id ∧ i.direction = reserving a.normalBalance)

theorem sum_takes (a : LedgerAccount) (inputs : List LedgerEntryInput) :
    (shifts phase a (inputs.filter (takes a))).sum = -taken a inputs := by
  unfold taken inputsOn
  induction inputs with
  | nil => rfl
  | cons i inputs ih =>
    by_cases hid : i.accountId = a.id
    · have hown : (i :: inputs).filter (·.accountId = a.id) = i :: inputs.filter (·.accountId = a.id) :=
        List.filter_cons_of_pos (by simpa using hid)
      rw [hown, sumDirection_cons]
      by_cases hd : i.direction = reserving a.normalBalance
      · have hshift : shift phase a.normalBalance i = -i.amountCents := if_pos hd
        rw [List.filter_cons_of_pos (by simp [takes, hid, hd]), shifts_cons_self hid, List.sum_cons, ih,
          hshift, if_pos hd]
        omega
      · rw [List.filter_cons_of_neg (by simp [takes, hd]), ih, if_neg hd]
        omega
    · have hother : (i :: inputs).filter (·.accountId = a.id) = inputs.filter (·.accountId = a.id) :=
        List.filter_cons_of_neg (by simpa using hid)
      rw [hother, List.filter_cons_of_neg (by simp [takes, hid]), ih]

theorem taken_perm (hperm : entries.Perm inputs) : taken a entries = taken a inputs := by
  unfold taken inputsOn sumDirection
  exact (((hperm.filter _).filter _).map _).foldr_eq 0

theorem assertBalanced_perm (hperm : entries.Perm inputs) {debits : Int}
    (h : assertBalanced inputs = .ok debits) : assertBalanced entries = .ok debits := by
  have hsum : ∀ direction, sumDirection direction entries = sumDirection direction inputs := by
    intro direction
    exact ((hperm.filter _).map _).foldr_eq 0
  have hfind : entries.find? (fun entry => decide (entry.amountCents ≤ 0)) = none := by
    apply List.find?_eq_none.mpr
    intro e he
    have hpositive := (assertBalanced_ok h).2 e (hperm.mem_iff.mp he)
    simpa using hpositive
  have hlength : ¬ inputs.length < 2 := by
    intro hshort
    rw [assertBalanced, if_pos hshort] at h
    cases h
  rw [assertBalanced, hperm.length_eq, if_neg hlength, hfind]
  dsimp only
  rw [hsum, hsum, if_pos (assertBalanced_balanced h), (assertBalanced_ok h).1]

def Accepted (s : LedgerStore) (mint : Mint) (input : PostTransactionInput) : Prop :=
  ∃ r, ((EngineCall.post mint input).run s).1 = .ok r

/-- The accounts of the entries are there, and after all of the entries none that
must not be negative is. -/
def FitsInTheEnd (s : LedgerStore) (phase : PostPhase) (inputs : List LedgerEntryInput) : Prop :=
  (∀ i ∈ inputs, (s.accounts.get i.accountId).isSome) ∧
    ∀ k a, s.accounts.get k = some a → a.allowsNegative = false →
      0 ≤ available (accountAfter (deltaFor phase) inputs a)

/-- What is available before the posting covers all that its entries take. -/
def Covered (s : LedgerStore) (inputs : List LedgerEntryInput) : Prop :=
  ∀ k a, s.accounts.get k = some a → a.allowsNegative = false → taken a inputs ≤ available a

/-- The order of the entries is of no account: not for the acceptance, which is
that of the final balances, and not for the accounts that come out. -/
structure OrderFree (s : LedgerStore) (mint : Mint) (input : PostTransactionInput) : Prop where
  accepted : ∀ entries, entries.Perm input.entries →
    (Accepted s mint { input with entries } ↔ Accepted s mint input)
  accounts : ∀ entries, entries.Perm input.entries → Accepted s mint { input with entries } →
    Accepted s mint input → ∀ k,
      ((EngineCall.post mint { input with entries }).run s).2.accounts.get k =
        ((EngineCall.post mint input).run s).2.accounts.get k
  checked : Accepted s mint input ↔ FitsInTheEnd s input.phase input.entries

theorem accepted_iff {debits : Int} (hkey : s.findByIdempotencyKey input.idempotencyKey = none)
    (hbalanced : assertBalanced input.entries = .ok debits) :
    Accepted s mint input ↔ (∀ i ∈ input.entries, (s.accounts.get i.accountId).isSome) ∧
      ∀ k a, s.accounts.get k = some a → a.allowsNegative = false →
        Stays (available a) (shifts input.phase a input.entries) := by
  have hlocked : ∀ i ∈ input.entries,
      (s.lockAccounts (lockOrder input.entries)).get i.accountId = s.accounts.get i.accountId := by
    intro i hi
    rw [lockAccounts_get, if_pos (mem_lockOrder.mpr ⟨i, hi, rfl⟩)]
  have happly : Accepted s mint input ↔ (applyDeltas (deltaFor input.phase) input.entries
      (s.lockAccounts (lockOrder input.entries))).isSome := by
    constructor
    · rintro ⟨r, hr⟩
      have ho := run_outcome s (.post mint input)
      rw [hr] at ho
      generalize (EngineCall.run s (.post mint input)).2 = s' at ho
      cases ho with
      | replayed _ existing hused => cases hkey.symm.trans hused
      | posted _ _ debits es after _ _ hbuilt =>
        rw [(deltas_of_buildEntries _ _ _ _ _ _ _ _ _ hbuilt).1]
        rfl
    · intro hsome
      obtain ⟨r, hr⟩ : ∃ posted, (Shadow.run (post mint input) s).1 = .ok posted :=
        post_accepted input hkey hbalanced hsome
      refine ⟨r, ?_⟩
      rw [run_post]
      unfold Shadow.run at hr
      generalize runExclusive (Engine.post mint input) s = result at hr ⊢
      obtain ⟨answer | answer, s'⟩ := result
      · cases hr
      · cases hr
        rfl
  rw [happly, applyDeltas_isSome_iff (locked_keyed s _)]
  constructor
  · rintro ⟨hexist, hstays⟩
    refine ⟨fun i hi => hlocked i hi ▸ hexist i hi, fun k a ha hn => ?_⟩
    by_cases hk : ∃ i ∈ input.entries, i.accountId = k
    · refine hstays k a ?_ hn
      rw [lockAccounts_get, if_pos (mem_lockOrder.mpr hk), ha]
    · have hid : a.id = k := Rows.key_of_get ha
      have hnil : input.entries.filter (·.accountId = a.id) = [] := by
        apply List.filter_eq_nil_iff.mpr
        intro i hi
        simp only [decide_eq_true_eq]
        exact fun he => hk ⟨i, hi, he.trans hid⟩
      rw [shifts, hnil]
      trivial
  · rintro ⟨hexist, hstays⟩
    refine ⟨fun i hi => (hlocked i hi).symm ▸ hexist i hi, fun k a ha hn => hstays k a ?_ hn⟩
    rw [lockAccounts_get] at ha
    split at ha
    · exact ha
    · cases ha

theorem accepted_get {k : String} (hkey : s.findByIdempotencyKey input.idempotencyKey = none)
    (h : Accepted s mint input) :
    ((EngineCall.post mint input).run s).2.accounts.get k =
      (s.accounts.get k).map (accountAfter (deltaFor input.phase) input.entries) := by
  obtain ⟨r, hr⟩ := h
  have ho := run_outcome s (.post mint input)
  rw [hr] at ho
  generalize (EngineCall.run s (.post mint input)).2 = s' at ho ⊢
  cases ho with
  | replayed _ existing hused => cases hkey.symm.trans hused
  | posted _ _ debits es after _ _ hbuilt =>
    have happly := (deltas_of_buildEntries _ _ _ _ _ _ _ _ _ hbuilt).1
    exact setAccounts_map happly k

/-- The order is of no account exactly if no balance depends on what the posting
itself brings in, or the final balances do not fit anyway. -/
theorem post_order_free_iff (newId : Nat → String)
    (hids : ((List.range singletonAccounts.length).map newId).Nodup) (ops : List Operation)
    (hfresh : FreshAll (newStore newId) ops) (mint : Mint) (input : PostTransactionInput) (debits : Int)
    (hkey : (ledgerAfter newId ops).findByIdempotencyKey input.idempotencyKey = none)
    (hbalanced : assertBalanced input.entries = .ok debits) :
    OrderFree (ledgerAfter newId ops) mint input ↔
      (FitsInTheEnd (ledgerAfter newId ops) input.phase input.entries →
        Covered (ledgerAfter newId ops) input.entries) := by
  have hsound : Sound (ledgerAfter newId ops) := performAll_sound (newStore_sound hids) hfresh
  generalize ledgerAfter newId ops = s at hkey hsound ⊢
  have hpositive := (assertBalanced_ok hbalanced).2
  have hiff : ∀ entries, entries.Perm input.entries → (Accepted s mint { input with entries } ↔
      (∀ i ∈ entries, (s.accounts.get i.accountId).isSome) ∧
      ∀ k a, s.accounts.get k = some a → a.allowsNegative = false →
        Stays (available a) (shifts input.phase a entries)) := fun entries hperm =>
    accepted_iff hkey (assertBalanced_perm hperm hbalanced)
  have hstart : ∀ {k a}, s.accounts.get k = some a → a.allowsNegative = false → 0 ≤ available a :=
    fun ha hn => violates_iff.mp (hsound.guarded _ _ ha) hn
  have hends : ∀ entries, entries.Perm input.entries → Accepted s mint { input with entries } →
      FitsInTheEnd s input.phase input.entries := by
    intro entries hperm haccepted
    obtain ⟨hexist, hstays⟩ := (hiff entries hperm).mp haccepted
    refine ⟨fun i hi => hexist i (hperm.mem_iff.mpr hi), fun k a ha hn => ?_⟩
    rw [← accountAfter_perm hperm, accountAfter_available]
    exact (hstays k a ha hn).total (hstart ha hn)
  have hcovers : FitsInTheEnd s input.phase input.entries → Covered s input.entries →
      ∀ entries, entries.Perm input.entries → Accepted s mint { input with entries } := by
    intro hfits hcovered entries hperm
    refine (hiff entries hperm).mpr ⟨fun i hi => hfits.1 i (hperm.mem_iff.mp hi), fun k a ha hn => ?_⟩
    apply stays_of_falls
    have hle := hcovered k a ha hn
    rw [falls_shifts fun i hi => hpositive i (hperm.mem_iff.mp hi), taken_perm hperm]
    omega
  have hself : Accepted s mint { input with entries := input.entries } ↔ Accepted s mint input := Iff.rfl
  constructor
  · intro hfree hfits k a ha hn
    -- All that the entries take from this account comes first.
    have hperm : (input.entries.filter (takes a) ++ input.entries.filter fun i => !takes a i).Perm
        input.entries := List.filter_append_perm _ _
    have haccepted := (hfree.accepted _ hperm).mpr (hfree.checked.mpr hfits)
    have hstays := ((hiff _ hperm).mp haccepted).2 k a ha hn
    rw [shifts, List.filter_append, List.map_append, stays_append] at hstays
    have htotal := hstays.1.total (hstart ha hn)
    have hsum : (shifts input.phase a (input.entries.filter (takes a))).sum = _ := sum_takes a input.entries
    rw [shifts] at hsum
    rw [hsum] at htotal
    omega
  · intro hcovers'
    refine ⟨fun entries hperm => ?_, fun entries hperm haccepted haccepted' k => ?_, ?_⟩
    · constructor
      · intro haccepted
        have hfits := hends entries hperm haccepted
        exact hcovers hfits (hcovers' hfits) input.entries (List.Perm.refl _)
      · intro haccepted
        have hfits := hends input.entries (List.Perm.refl _) haccepted
        exact hcovers hfits (hcovers' hfits) entries hperm
    · have hother : ((EngineCall.post mint { input with entries }).run s).2.accounts.get k =
          (s.accounts.get k).map (accountAfter (deltaFor input.phase) entries) := accepted_get hkey haccepted
      rw [hother, accepted_get hkey haccepted']
      refine congrArg (fun f => Option.map f (s.accounts.get k)) ?_
      funext a
      exact accountAfter_perm hperm a
    · constructor
      · exact hends input.entries (List.Perm.refl _)
      · exact fun hfits => hcovers hfits (hcovers' hfits) input.entries (List.Perm.refl _)

/-- One customer with accounts opened and nothing on them. -/
def openedOperations : List Operation := sampleOperations.take 1

def passThrough (entries : List LedgerEntryInput) : PostTransactionInput :=
  { samplePost .POSTED "through" "c0" "c0" 50 with entries }

theorem post_order_free_funding :
    FreshAll (newStore sampleId) openedOperations ∧
      OrderFree (ledgerAfter sampleId openedOperations) (sampleMint "t0")
        (samplePost .POSTED "fund" (sampleId 9) "c0" 100) := by
  have hfresh : FreshAll (newStore sampleId) openedOperations := by decide
  refine ⟨hfresh, ?_⟩
  refine (post_order_free_iff sampleId (by decide) openedOperations hfresh (sampleMint "t0")
    (samplePost .POSTED "fund" (sampleId 9) "c0" 100) 100 rfl rfl).mpr fun _ k a ha hn => ?_
  have hcovered : ∀ r ∈ (ledgerAfter sampleId openedOperations).accounts.table.rows,
      r.2.allowsNegative = false →
      taken r.2 (samplePost .POSTED "fund" (sampleId 9) "c0" 100).entries ≤ available r.2 := by
    decide
  exact hcovered (k, a) ((lookup_eq_some (Table.nodup _)).mp ha) hn

/-- In and out of an empty account is refused or posted by which entry comes first. -/
theorem pass_through_depends_on_order :
    ¬ OrderFree (ledgerAfter sampleId openedOperations) (sampleMint "t0")
      (passThrough [⟨"c0", .CREDIT, 50⟩, ⟨"c0", .DEBIT, 50⟩]) := by
  intro hfree
  have hperm : [(⟨"c0", .DEBIT, 50⟩ : LedgerEntryInput), ⟨"c0", .CREDIT, 50⟩].Perm
      [⟨"c0", .CREDIT, 50⟩, ⟨"c0", .DEBIT, 50⟩] := List.Perm.swap _ _ _
  have haccepted : Accepted (ledgerAfter sampleId openedOperations) (sampleMint "t0")
      (passThrough [⟨"c0", .CREDIT, 50⟩, ⟨"c0", .DEBIT, 50⟩]) := ⟨_, rfl⟩
  obtain ⟨r, hr⟩ := (hfree.accepted _ hperm).mpr haccepted
  have hrefused : ((EngineCall.post (sampleMint "t0")
      (passThrough [⟨"c0", .DEBIT, 50⟩, ⟨"c0", .CREDIT, 50⟩])).run
      (ledgerAfter sampleId openedOperations)).1 = .error (.insufficientFunds "c0" 50 0) := rfl
  cases hrefused.symm.trans hr

end BaasConnector.Ledger.EntryOrder
