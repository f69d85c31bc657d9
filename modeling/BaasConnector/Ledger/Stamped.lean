import BaasConnector.Ledger.Availability
import BaasConnector.Ledger.Movements
import BaasConnector.Lib.Stamps

namespace BaasConnector.Ledger.Calls.EngineCall

open BaasConnector.Ledger.Types BaasConnector.Ledger.Engine BaasConnector.Ledger.MemoryStore
open BaasConnector.Ledger.Outcomes

def inputs (s : LedgerStore) : EngineCall → List LedgerEntryInput
  | .post _ input => input.entries
  | .resolvePending _ id _ _ => pendingInputs s id

def phase : EngineCall → EntryPhase
  | .post _ input => input.phase.entryPhase
  | .resolvePending _ _ _ commit => resolvePhase commit

def effectiveAt : EngineCall → Int
  | .post mint input => input.effectiveAt.getD mint.now
  | .resolvePending mint .. => mint.now

/-- The call is neither refused nor the replay of an earlier one. -/
def accepted (s : LedgerStore) (c : EngineCall) : Bool :=
  match (c.run s).1 with
  | .ok r => !r.replayed
  | .error _ => false

end BaasConnector.Ledger.Calls.EngineCall

namespace BaasConnector.Ledger.Stamped

open BaasConnector.Lib.Keyed BaasConnector.Lib.Stamps BaasConnector.Ledger.Types
open BaasConnector.Ledger.Engine BaasConnector.Ledger.MemoryStore BaasConnector.Ledger.Outcomes
open BaasConnector.Ledger.Holds BaasConnector.Ledger.Adjustments BaasConnector.Ledger.Receipts
open BaasConnector.Ledger.Invariants BaasConnector.Ledger.Counters BaasConnector.Ledger.Books
open BaasConnector.Ledger.Reachable BaasConnector.Ledger.Calls BaasConnector.Ledger.Consistency
open BaasConnector.Ledger.Availability BaasConnector.Ledger.Movements

/-- The amount of an entry, with the sign it has on an account of this nature. -/
def signedFor (normal : NormalBalance) (i : LedgerEntryInput) : Int :=
  if i.direction = raising normal then i.amountCents else -i.amountCents

def postedChange (normal : NormalBalance) (e : LedgerEntry) : Int :=
  if e.phase = .POSTED then signedFor normal e.toLedgerEntryInput else 0

/-- The entries of an account that no hold stands for. -/
def settledEntries (s : LedgerStore) (accountId : String) : List LedgerEntry :=
  (allEntries s).filter fun e => e.accountId = accountId ∧ e.phase ≠ .PENDING

variable {s s' : LedgerStore} {c : EngineCall} {normal : NormalBalance} {k : String}
  {es : List LedgerEntry} {inputs : List LedgerEntryInput}

theorem sum_signedFor (normal : NormalBalance) (inputs : List LedgerEntryInput) :
    (inputs.map (signedFor normal)).sum =
      sumDirection (raising normal) inputs - sumDirection (reserving normal) inputs := by
  induction inputs with
  | nil => rfl
  | cons i inputs ih =>
    rw [List.map_cons, List.sum_cons, ih, sumDirection_cons, sumDirection_cons]
    cases normal <;> cases hd : i.direction <;> simp [signedFor, raising, reserving, hd] <;> omega

theorem total_postedChange (normal : NormalBalance) (es : List LedgerEntry) :
    total (postedChange normal) es =
      (((es.filter (·.phase = .POSTED)).map (·.toLedgerEntryInput)).map (signedFor normal)).sum := by
  induction es with
  | nil => rfl
  | cons e es ih =>
    rw [total, List.map_cons, List.sum_cons]
    change _ + total (postedChange normal) es = _
    rw [ih]
    by_cases h : e.phase = .POSTED
    · simp [postedChange, h]
    · simp [postedChange, h]

/-- What the settled entries of an account change together is its posted balance. -/
theorem total_settled (h : Sound s) {a : LedgerAccount} (ha : s.accounts.get k = some a) :
    total (postedChange a.normalBalance) (settledEntries s k) = (computeBalances a).posted := by
  have hposted : (settledEntries s k).filter (·.phase = .POSTED) =
      (postedEntries s).filter (·.accountId = k) := by
    rw [settledEntries, postedEntries, List.filter_filter, List.filter_filter]
    refine List.filter_congr fun e _ => ?_
    cases e.phase <;> simp
  have hcounter : ∀ direction, counter a .POSTED direction =
      sumDirection direction (((postedEntries s).filter (·.accountId = k)).map (·.toLedgerEntryInput)) :=
    fun direction => (h.counters k a ha .POSTED direction).trans (standing_posted h direction k)
  rw [total_postedChange, hposted, sum_signedFor, ← hcounter, ← hcounter, computeBalances]
  cases a.normalBalance <;> rfl

section Build

variable {mint : Mint} {transaction : LedgerTransaction} {phase : EntryPhase}
  {delta : LedgerEntryInput → CounterDelta} {index : Nat} {accounts after : Accounts}

theorem buildEntries_zipIdx
    (h : buildEntries mint transaction phase delta index inputs accounts = .ok (es, after)) :
    es.map (fun e => (e.toLedgerEntryInput, e.sequence)) = inputs.zipIdx index := by
  induction inputs generalizing index accounts es with
  | nil =>
    simp only [buildEntries, Except.ok.injEq, Prod.mk.injEq] at h
    rw [← h.1]
    rfl
  | cons input inputs ih =>
    simp only [buildEntries] at h
    split at h
    · cases h
    · split at h
      · cases h
      · split at h
        · cases h
        · next hrest =>
          simp only [Except.ok.injEq, Prod.mk.injEq] at h
          rw [← h.1, List.map_cons, List.zipIdx_cons, ih (by rw [hrest, h.2])]
          rfl

/-- The last entry that a write puts on an account is stamped with the balance it leaves. -/
theorem buildEntries_stamp
    (h : buildEntries mint transaction phase delta index inputs accounts = .ok (es, after)) :
    (∀ e ∈ (es.filter (·.accountId = k)).getLast?, ∃ a, after.get k = some a ∧
      e.resultingPostedCents = (computeBalances a).posted) ∧
    ((es.filter (·.accountId = k)).getLast? = none → after.get k = accounts.get k) := by
  induction inputs generalizing index accounts es with
  | nil =>
    simp only [buildEntries, Except.ok.injEq, Prod.mk.injEq] at h
    rw [← h.1, ← h.2]
    simp
  | cons input inputs ih =>
    simp only [buildEntries] at h
    split at h
    · cases h
    · next before hbefore =>
      split at h
      · cases h
      · split at h
        · cases h
        · next rest accounts' hrest =>
          simp only [Except.ok.injEq, Prod.mk.injEq] at h
          obtain ⟨rfl, rfl⟩ := h
          obtain ⟨hstamp, huntouched⟩ := ih hrest
          by_cases hk : (entryOf mint transaction phase index input
              (applyDelta before (delta input))).accountId = k
          · rw [List.filter_cons_of_pos (by simpa using hk), List.getLast?_cons]
            refine ⟨fun e he => ?_, fun hnone => by cases hnone⟩
            obtain rfl := Option.some.inj he
            cases hlast : (rest.filter (·.accountId = k)).getLast? with
            | none =>
              refine ⟨_, (huntouched hlast).trans ?_, rfl⟩
              exact (Table.get_set _ _ _ _).trans (if_pos hk.symm)
            | some e => exact hstamp e hlast
          · rw [List.filter_cons_of_neg (by simpa using hk)]
            refine ⟨hstamp, fun hnone => (huntouched hnone).trans ?_⟩
            exact Table.get_set_ne _ _ (Ne.symm hk)

end Build

/-- What an accepted call adds to the ledger. -/
structure Writes (s : LedgerStore) (c : EngineCall) (es : List LedgerEntry) (s' : LedgerStore) : Prop where
  rows : es.map (fun e => (e.toLedgerEntryInput, e.sequence)) = (c.inputs s).zipIdx
  phase : ∀ e ∈ es, e.phase = c.phase
  effectiveAt : ∀ e ∈ es, e.effectiveAt = c.effectiveAt
  entries : allEntries s' = allEntries s ++ es
  stamped : ∀ k, ∀ e ∈ (es.filter (·.accountId = k)).getLast?, ∃ a, s'.accounts.get k = some a ∧
    e.resultingPostedCents = (computeBalances a).posted

theorem allEntries_persist {t : LedgerTransaction} (accounts : List LedgerAccount) (hne : es ≠ [])
    (hfree : s.entries.get t.id = none) : allEntries (s.persist t es accounts) = allEntries s ++ es := by
  have hset : (s.persist t es accounts).entries = s.entries.set t.id es := by
    simp [LedgerStore.persist, hne]
  have hvalues : (s.entries.set t.id es).values = s.entries.values ++ [es] :=
    (congrArg (List.map Prod.snd) (store_new es hfree)).trans List.map_append
  rw [allEntries, allEntries, hset, hvalues, List.flatten_append, List.flatten_singleton]

theorem stamped_persist {t : LedgerTransaction} {phase : EntryPhase} {mint : Mint}
    {delta : LedgerEntryInput → CounterDelta} {after : Accounts}
    (hbuilt : buildEntries mint t phase delta 0 inputs (s.lockAccounts (lockOrder inputs)) =
      .ok (es, after)) (k : String) :
    ∀ e ∈ (es.filter (·.accountId = k)).getLast?,
      ∃ a, (s.persist t es after.values).accounts.get k = some a ∧
        e.resultingPostedCents = (computeBalances a).posted := by
  intro e he
  obtain ⟨a, ha, hstamp⟩ := (buildEntries_stamp hbuilt).1 e he
  refine ⟨a, ?_, hstamp⟩
  have happly := (deltas_of_buildEntries _ _ _ _ _ _ _ _ _ hbuilt).1
  have hkeyed := applyDeltas_keyed (locked_keyed s _) happly
  have hput := Rows.get_puts_of_mem s.accounts (keyed_nodup hkeyed) (Table.mem_values.mpr ⟨k, ha⟩)
  rw [hkeyed k a ha] at hput
  exact hput

/-- An accepted call writes entries, and any other call leaves the ledger as it was. -/
theorem run_writes (h : Sound s) (hindexed : Indexed s) (hfresh : c.Fresh s) :
    if c.accepted s then ∃ es, Writes s c es (c.run s).2 else (c.run s).2 = s := by
  have ho := run_outcome s c
  unfold EngineCall.accepted
  generalize (c.run s).1 = r, (c.run s).2 = s' at ho
  cases ho with
  | failed => simp
  | replayed => simp
  | posted mint input debits es after hkey hbalanced hbuilt =>
    refine ⟨es, ⟨buildEntries_zipIdx hbuilt, buildEntries_phase _ _ _ _ hbuilt,
      buildEntries_forall _ _ _ _ (fun _ _ _ => rfl) hbuilt, ?_, stamped_persist hbuilt⟩⟩
    exact allEntries_persist _ (posted_entries_ne hbalanced hbuilt) (h.entries_none (hfresh hkey).2)
  | resolved mint id options commit pending es after hkey hget hpending hbuilt =>
    refine ⟨es, ⟨buildEntries_zipIdx hbuilt, buildEntries_phase _ _ _ _ hbuilt,
      buildEntries_forall _ _ _ _ (fun _ _ _ => rfl) hbuilt, ?_, stamped_persist hbuilt⟩⟩
    exact allEntries_persist (t := resolution mint id options commit pending) after.values
      (resolved_entries_ne hindexed hget hbuilt) (h.entries_none hfresh.resolve)

/-- The index of the last of the inputs that is on the account. -/
def lastOn (accountId : String) (inputs : List LedgerEntryInput) : Option Nat :=
  ((inputs.zipIdx.filter (·.1.accountId = accountId)).getLast?).map (·.2)

/-- What the call changes in the posted balance of the account, if it is accepted. -/
def netOn (s : LedgerStore) (c : EngineCall) (accountId : String) (normal : NormalBalance) : Int :=
  if c.phase = .POSTED then
    (((c.inputs s).filter (·.accountId = accountId)).map (signedFor normal)).sum
  else 0

/-- The call settles nothing on the account, or after all that is settled there, or
it changes nothing where no balance is read from it or none is due. -/
def SettlesInOrder (s : LedgerStore) (c : EngineCall) (accountId : String) (normal : NormalBalance) : Prop :=
  c.accepted s = true → c.phase ≠ .PENDING → ∀ index ∈ lastOn accountId (c.inputs s),
    (∀ o ∈ settledEntries s accountId, o.effectiveAt < c.effectiveAt ∨
      (o.effectiveAt = c.effectiveAt ∧ o.sequence ≤ index)) ∨
    netOn s c accountId normal = 0 ∧
      ((∃ o ∈ settledEntries s accountId, o.effectiveAt = c.effectiveAt ∧ index < o.sequence) ∨
        total (postedChange normal)
          ((settledEntries s accountId).filter (c.effectiveAt < ·.effectiveAt)) = 0)

instance (s : LedgerStore) (c : EngineCall) (accountId : String) (normal : NormalBalance) :
    Decidable (SettlesInOrder s c accountId normal) := by
  unfold SettlesInOrder
  infer_instance

/-- The last settled entry until an instant is stamped with the posted balance of
that instant. -/
def BalanceExplained (s : LedgerStore) (accountId : String) (normal : NormalBalance) : Prop :=
  Explained earlier (·.effectiveAt) (·.resultingPostedCents) (postedChange normal)
    (settledEntries s accountId)

instance : IsTrans LedgerEntry earlier where
  trans a b c hab hbc := by
    unfold earlier at *
    omega

instance : Std.Total earlier where
  total a b := by
    unfold earlier
    omega

theorem latest_of_pairwise {l : List LedgerEntry} (h : l.Pairwise earlier) :
    latest earlier l = l.getLast? := by
  rw [← getLast?_insertionSort, h.insertionSort_eq]

theorem Writes.pairwise (hw : Writes s c es s') : es.Pairwise earlier := by
  have hsequence : es.map (·.sequence) = List.range' 0 es.length := by
    have h := congrArg (List.map Prod.snd) hw.rows
    rw [List.map_map, List.zipIdx_map_snd] at h
    have hlength := congrArg List.length hw.rows
    rw [List.length_map, List.length_zipIdx] at hlength
    rw [hlength]
    exact h
  have hsorted : es.Pairwise fun a b => a.sequence < b.sequence := by
    have hrange : (List.range' 0 es.length).Pairwise (· < ·) := List.pairwise_lt_range'
    rw [← hsequence, List.pairwise_map] at hrange
    exact hrange
  refine hsorted.imp_of_mem fun {a b} ha hb hlt => ?_
  exact .inr ⟨(hw.effectiveAt a ha).trans (hw.effectiveAt b hb).symm, Nat.le_of_lt hlt⟩

theorem Writes.lastOn (hw : Writes s c es s') (k : String) :
    lastOn k (c.inputs s) = ((es.filter (·.accountId = k)).getLast?).map (·.sequence) := by
  rw [Stamped.lastOn, ← hw.rows, List.filter_map, List.getLast?_map, Option.map_map]
  rfl

theorem Writes.settled (hw : Writes s c es s') (hphase : c.phase ≠ .PENDING) (k : String) :
    settledEntries s' k = settledEntries s k ++ es.filter (·.accountId = k) := by
  rw [settledEntries, settledEntries, hw.entries, List.filter_append]
  refine congrArg (_ ++ ·) (List.filter_congr fun e he => ?_)
  have hsettled : e.phase ≠ .PENDING := by rw [hw.phase e he]; exact hphase
  simp [hsettled]

theorem Writes.pending (hw : Writes s c es s') (hphase : c.phase = .PENDING) (k : String) :
    settledEntries s' k = settledEntries s k := by
  have hnil : (es.filter fun e => e.accountId = k ∧ e.phase ≠ .PENDING) = [] := by
    refine List.filter_eq_nil_iff.mpr fun e he => ?_
    simp [hw.phase e he, hphase]
  rw [settledEntries, settledEntries, hw.entries, List.filter_append, hnil, List.append_nil]

theorem Writes.net (hw : Writes s c es s') (k : String) (normal : NormalBalance) :
    total (postedChange normal) (es.filter (·.accountId = k)) = netOn s c k normal := by
  have hinputs : es.map (·.toLedgerEntryInput) = c.inputs s := by
    have h := congrArg (List.map Prod.fst) hw.rows
    rw [List.map_map, List.zipIdx_map_fst] at h
    exact h
  rw [total_postedChange, netOn, List.filter_filter]
  by_cases hposted : c.phase = .POSTED
  · have hfilter : (es.filter fun e => decide (e.phase = .POSTED) && decide (e.accountId = k)) =
        es.filter (·.accountId = k) := by
      refine List.filter_congr fun e he => ?_
      simp [hw.phase e he, hposted]
    rw [hfilter, if_pos hposted, ← hinputs, List.filter_map]
    rfl
  · have hnil : (es.filter fun e => decide (e.phase = .POSTED) && decide (e.accountId = k)) = [] := by
      refine List.filter_eq_nil_iff.mpr fun e he => ?_
      simp [hw.phase e he, hposted]
    rw [hnil, if_neg hposted]
    rfl

theorem run_sound (h : Sound s) (hfresh : c.Fresh s) : Sound (c.run s).2 := by
  rw [← EngineCall.perform_operation]
  exact perform_sound h hfresh

/-- The entries that a call settles on an account carry the running balance. -/
theorem Writes.batch (hw : Writes s c es (c.run s).2) (h : Sound s) (hfresh : c.Fresh s)
    {a : LedgerAccount} (ha : s.accounts.get k = some a) (hphase : c.phase ≠ .PENDING) {m : LedgerEntry}
    (hlast : (es.filter (·.accountId = k)).getLast? = some m) :
    Batch earlier (·.effectiveAt) (·.resultingPostedCents) (postedChange a.normalBalance)
      (settledEntries s k) (es.filter (·.accountId = k)) m := by
  have hmem : m ∈ es := List.mem_of_mem_filter (List.mem_of_getLast? hlast)
  refine ⟨(latest_of_pairwise (hw.pairwise.filter _)).trans hlast, fun e he => ?_, ?_⟩
  · rw [hw.effectiveAt e (List.mem_of_mem_filter he), hw.effectiveAt m hmem]
  · obtain ⟨b, hb, hstamp⟩ := hw.stamped k m hlast
    have hperformed : ∃ b, (c.operation.perform s).accounts.get k = some b ∧
        b.normalBalance = a.normalBalance := perform_account hfresh ha
    obtain ⟨b', hb', hnormal⟩ := hperformed
    rw [EngineCall.perform_operation] at hb'
    obtain rfl := Option.some.inj (hb.symm.trans hb')
    rw [← total_append, ← hw.settled hphase, ← hnormal, total_settled (run_sound h hfresh) hb, hstamp]

/-- What a call adds to the sums of an account: its net, from its instant on. -/
theorem total_upTo_run (h : Sound s) (hindexed : Indexed s) (hfresh : c.Fresh s) (k : String)
    (normal : NormalBalance) (t : Int) :
    total (postedChange normal) (upTo (·.effectiveAt) (settledEntries (c.run s).2 k) t) =
      total (postedChange normal) (upTo (·.effectiveAt) (settledEntries s k) t) +
        if c.accepted s = true ∧ c.effectiveAt ≤ t then netOn s c k normal else 0 := by
  have hw := run_writes h hindexed hfresh
  by_cases haccepted : c.accepted s = true
  · rw [if_pos haccepted] at hw
    obtain ⟨es, hw⟩ := hw
    by_cases hphase : c.phase = .PENDING
    · have hnet : netOn s c k normal = 0 := if_neg (by rw [hphase]; decide)
      rw [hw.pending hphase, hnet, ite_self, add_zero]
    · rw [hw.settled hphase, upTo_append, total_append, ← hw.net]
      by_cases ht : c.effectiveAt ≤ t
      · have hall : upTo (·.effectiveAt) (es.filter (·.accountId = k)) t = es.filter (·.accountId = k) :=
          List.filter_eq_self.mpr fun e he => by
            simpa [hw.effectiveAt e (List.mem_of_mem_filter he)] using ht
        rw [hall, if_pos ⟨haccepted, ht⟩]
      · have hnil : upTo (·.effectiveAt) (es.filter (·.accountId = k)) t = [] :=
          List.filter_eq_nil_iff.mpr fun e he => by
            simpa [hw.effectiveAt e (List.mem_of_mem_filter he)] using ht
        rw [hnil, if_neg fun hc => ht hc.2]
        rfl
  · rw [if_neg haccepted] at hw
    rw [hw, if_neg fun hc => haccepted hc.1, add_zero]

/-- A call keeps the balances of an account explained just when it settles in order. -/
theorem call_explained_iff (h : Sound s) (hindexed : Indexed s) (hfresh : c.Fresh s) {a : LedgerAccount}
    (ha : s.accounts.get k = some a) (hexplained : BalanceExplained s k a.normalBalance) :
    BalanceExplained (c.run s).2 k a.normalBalance ↔ SettlesInOrder s c k a.normalBalance := by
  have hw := run_writes h hindexed hfresh
  by_cases haccepted : c.accepted s = true
  · rw [if_pos haccepted] at hw
    obtain ⟨es, hw⟩ := hw
    by_cases hphase : c.phase = .PENDING
    · rw [BalanceExplained, hw.pending hphase]
      exact ⟨fun _ _ hne => absurd hphase hne, fun _ => hexplained⟩
    · rw [BalanceExplained, hw.settled hphase, SettlesInOrder, hw.lastOn]
      cases hlast : (es.filter (·.accountId = k)).getLast? with
      | none =>
        rw [List.getLast?_eq_none_iff.mp hlast, List.append_nil]
        refine ⟨fun _ _ _ index hindex => ?_, fun _ => hexplained⟩
        cases hindex
      | some m =>
        have hmem : m ∈ es := List.mem_of_mem_filter (List.mem_of_getLast? hlast)
        have hinstant := hw.effectiveAt m hmem
        have hearlier : ∀ o : LedgerEntry, earlier o m ↔ o.effectiveAt < c.effectiveAt ∨
            (o.effectiveAt = c.effectiveAt ∧ o.sequence ≤ m.sequence) := by
          intro o
          rw [← hinstant]
          exact Iff.rfl
        have hlevel : ∀ o : LedgerEntry, (o.effectiveAt = m.effectiveAt ∧ ¬ earlier o m) ↔
            o.effectiveAt = c.effectiveAt ∧ m.sequence < o.sequence := by
          intro o
          rw [hearlier]
          omega
        rw [explained_append_iff hexplained (hw.batch h hfresh ha hphase hlast)
          (fun a b hab => by unfold earlier at hab; omega) (fun a b hab => .inl hab), InOrder, hw.net]
        simp only [hlevel]
        simp only [hearlier, hinstant]
        constructor
        · rintro horder - - index hindex
          obtain rfl := Option.some.inj hindex
          exact horder
        · intro horder
          exact horder haccepted hphase m.sequence rfl
  · rw [if_neg haccepted] at hw
    rw [hw]
    exact ⟨fun _ hc => absurd hc haccepted, fun _ => hexplained⟩

end BaasConnector.Ledger.Stamped
