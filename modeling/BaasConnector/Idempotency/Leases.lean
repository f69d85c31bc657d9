import BaasConnector.Lib.History
import BaasConnector.Idempotency.Slots

namespace BaasConnector.Idempotency.Leases

open BaasConnector.Lib.Keyed BaasConnector.Lib.History BaasConnector.Taxonomy.Errors
open BaasConnector.Connector.Records
open BaasConnector.Idempotency.Executors BaasConnector.Idempotency.Slots

variable {requests : Nat → Request} {records : Records} {now : Int} {i : Nat} {id id' : MintedId}

section Call

variable {request : Request} {phase : Phase}

theorem apply_get_ne (write : Write) (h : id' ≠ id) :
    (write.apply records id now).1.get id' = records.get id' := by
  unfold Write.apply
  cases hget : records.get id with
  | none => rfl
  | some record =>
    have hid : record.id = id := Rows.key_of_get hget
    cases write with
    | complete completion => exact Rows.get_put_ne records _ (hid ▸ h)
    | renewLease => exact Rows.get_put_ne records _ (hid ▸ h)
    | release =>
      change (records.delete id).get id' = _
      rw [Rows.get_delete, if_neg h]

/-- The record that an executor holds, or held, the lease of. -/
def works : Phase → Option MintedId
  | .rereading id => some id
  | .executing id => id
  | .writing id _ _ => some id
  | _ => none

theorem target_of_works (h : works phase = some id) : target phase = some id := by
  cases phase with
  | rereading id' => exact h
  | executing id' => exact h
  | writing id' write result => exact h
  | arrived | claiming | finding | stealing | answered | crashed => cases h

theorem works_finish {result : Except Thrown (Nat × ResponseBody)}
    (h : works (finish phase result) = some id) : works phase = some id := by
  cases phase with
  | executing id' =>
    cases id' with
    | none => cases h
    | some id' => exact h
  | arrived | claiming | finding | stealing | rereading | writing | answered | crashed => exact h

theorem works_resolveConflict (request : Request) (record : StoredRecord) (now : Int) :
    works (resolveConflict request record now) = none := by
  unfold resolveConflict
  split
  · rfl
  · split
    · rfl
    · split <;> rfl

/-- The takes of a lease: a new record, or one whose lease ran out. -/
inductive Takes (i : Nat) (now : Int) (records : Records) : Phase → MintedId → Prop
  | minted (attempt : Nat) : Takes i now records (.claiming attempt) ⟨i, attempt⟩
  | stolen (id : MintedId) (record : StoredRecord) (hget : records.get id = some record)
      (hexpired : record.expired now = true) : Takes i now records (.stealing id) id

/-- A call that takes no lease changes no record but the stored one that it writes. -/
structure Rests (records : Records) (phase : Phase) (next : Stepped) : Prop where
  acquired : next.acquired = none
  works : ∀ id, works next.phase = some id → works phase = some id
  writes : ∀ id, next.records.get id ≠ records.get id →
    records.get id ≠ none ∧ ∃ write result, phase = .writing id write result

theorem rests_stepped {phase' : Phase} (h : ∀ id, works phase' = some id → works phase = some id) :
    Rests records phase (stepped phase' records) where
  acquired := rfl
  works := h
  writes _ hne := absurd rfl hne

theorem rests_idle {phase' : Phase} (h : works phase' = none) :
    Rests records phase (stepped phase' records) :=
  rests_stepped fun id hworks => by rw [h] at hworks; cases hworks

/-- A call takes a lease, and changes the record it takes alone, or it rests. -/
theorem call_lease (request : Request) (i : Nat) (now : Int) (records : Records) (phase : Phase) :
    (∃ id, Takes i now records phase id ∧ (call request i now records phase).acquired = some id ∧
      works (call request i now records phase).phase = some id ∧
      ∀ id', id' ≠ id → (call request i now records phase).records.get id' = records.get id') ∨
    Rests records phase (call request i now records phase) := by
  cases phase with
  | claiming attempt =>
    simp only [call, claim]
    cases hfind : records.find request.slot with
    | some record => exact .inr (rests_idle rfl)
    | none => exact .inl ⟨_, .minted attempt, rfl, rfl, fun id' hne => Rows.get_put_ne records _ hne⟩
  | stealing id =>
    simp only [call, stealLease]
    cases hget : records.get id with
    | none => exact .inr (rests_idle rfl)
    | some record =>
      have hid : record.id = id := Rows.key_of_get hget
      by_cases hexpired : record.expired now = true
      · simp only [hexpired, if_true]
        refine .inl ⟨id, .stolen id record hget hexpired, rfl, rfl, fun id' hne => ?_⟩
        exact Rows.get_put_ne records _ (by rw [StoredRecord.stolen, hid]; exact hne)
      · simp only [hexpired, Bool.false_eq_true, if_false]
        exact .inr (rests_idle rfl)
  | writing id write result =>
    refine .inr ⟨rfl, fun id' h => ?_, fun id' h => ?_⟩
    · simp only [call, stepped, afterWrite] at h
      split at h
      · exact h
      · cases h
      · cases h
      · cases h
    · by_cases hid : id' = id
      · subst hid
        refine ⟨fun hnone => h ?_, write, result, rfl⟩
        simp only [call, stepped, Write.apply, hnone]
      · exact absurd (apply_get_ne write hid) h
  | finding attempt =>
    simp only [call]
    cases hfind : records.find request.slot with
    | none => exact .inr (rests_idle rfl)
    | some record => exact .inr (rests_idle (works_resolveConflict request record now))
  | rereading id =>
    simp only [call]
    cases hget : records.get id with
    | none => exact .inr (rests_idle rfl)
    | some record =>
      have hid : record.id = id := Rows.key_of_get hget
      exact .inr (rests_stepped fun id' h => by rw [← h, ← hid]; rfl)
  | arrived =>
    simp only [call]
    split
    · split
      · exact .inr (rests_idle rfl)
      · exact .inr (rests_idle rfl)
    · split
      · exact .inr (rests_idle rfl)
      · exact .inr (rests_idle rfl)
  | executing id => exact .inr (rests_stepped fun id h => h)
  | answered answer => exact .inr (rests_stepped fun id h => h)
  | crashed => exact .inr (rests_stepped fun id h => h)

end Call

section Minting

/-- Whether a request may still mint an id of the given try. -/
def MayMint (attempt : Nat) : Phase → Prop
  | .arrived => True
  | .claiming n => n ≤ attempt
  | .finding n => n < attempt
  | _ => False

variable {request : Request} {phase : Phase} {s : State}

theorem not_mayMint_of_target {n : Nat} (h : target phase = some id) : ¬ MayMint n phase := by
  cases phase with
  | stealing | rereading | executing | writing => exact not_false
  | arrived | claiming | finding | answered | crashed => cases h

theorem mayMint_resolveConflict {n : Nat} {record : StoredRecord} :
    ¬ MayMint n (resolveConflict request record now) := by
  unfold resolveConflict
  split
  · exact not_false
  · split
    · exact not_false
    · split <;> exact not_false

theorem mayMint_call {n : Nat} (h : MayMint n (call request i now records phase).phase) :
    MayMint n phase := by
  cases phase with
  | arrived => trivial
  | claiming attempt =>
    simp only [call, claim] at h
    cases hfind : records.find request.slot with
    | none => simp [hfind, MayMint] at h
    | some record =>
      simp only [hfind, stepped, MayMint] at h
      exact le_of_lt h
  | finding attempt =>
    simp only [call] at h
    cases hfind : records.find request.slot with
    | none =>
      simp only [hfind, stepped, MayMint] at h
      exact h
    | some record =>
      simp only [hfind, stepped] at h
      exact absurd h mayMint_resolveConflict
  | stealing id =>
    simp only [call, stealLease] at h
    cases hget : records.get id with
    | none => simp [hget, stepped, MayMint] at h
    | some record =>
      simp only [hget] at h
      split at h <;> exact h.elim
  | rereading id =>
    simp only [call] at h
    cases hget : records.get id <;> simp [hget, stepped, MayMint] at h
  | writing id write result =>
    simp only [call, stepped, afterWrite] at h
    split at h <;> exact h.elim
  | executing id => exact h
  | answered answer => exact h
  | crashed => exact h

theorem mayMint_step {n j : Nat} (action : Action)
    (h : MayMint n ((s.step requests action).phases j)) : MayMint n (s.phases j) := by
  cases action with
  | call i now =>
    by_cases hj : j = i
    · subst hj
      simp only [State.step, Function.update_self] at h
      exact mayMint_call h
    · simpa only [State.step, Function.update_of_ne hj] using h
  | finish i result =>
    by_cases hj : j = i
    · subst hj
      simp only [State.step, Function.update_self] at h
      cases hphase : s.phases j with
      | executing id => cases id <;> simp [hphase, finish, MayMint] at h
      | arrived | claiming | finding | stealing | rereading | writing | answered | crashed =>
        simpa only [hphase, finish] using h
    · simpa only [State.step, Function.update_of_ne hj] using h
  | crash i =>
    by_cases hj : j = i
    · subst hj
      simp only [State.step, Function.update_self] at h
      exact h.elim
    · simpa only [State.step, Function.update_of_ne hj] using h

/-- No id that is stored or dealt with will be minted again. -/
structure Fresh (s : State) : Prop where
  stored : ∀ id record, s.records.get id = some record → ¬ MayMint id.attempt (s.phases id.executor)
  dealt : ∀ j id, target (s.phases j) = some id → ¬ MayMint id.attempt (s.phases id.executor)

theorem initial_fresh : Fresh initial where
  stored id record h := by cases h
  dealt j id h := by cases h

theorem Fresh.step (h : Fresh s) (hsound : Sound requests s) (action : Action) :
    Fresh (s.step requests action) := by
  refine ⟨fun id record hget hmint => ?_, fun j id htarget hmint => ?_⟩
  · cases action with
    | finish i result => exact h.stored id record hget (mayMint_step _ hmint)
    | crash i => exact h.stored id record hget (mayMint_step _ hmint)
    | call i now =>
      cases hold : s.records.get id with
      | some record' => exact h.stored id record' hold (mayMint_step _ hmint)
      | none =>
        have hne : (call (requests i) i now s.records (s.phases i)).records.get id ≠ s.records.get id := by
          rw [hold]
          exact fun hnone => absurd (hget.symm.trans hnone) (by simp)
        obtain ⟨id', htakes, -, hworks, hframe⟩ | hrests := call_lease (requests i) i now s.records (s.phases i)
        · obtain rfl : id = id' := by_contra fun hother => hne (hframe id hother)
          generalize hphase : s.phases i = phase at htakes
          cases htakes with
          | stolen _ record' hget' hexpired => exact absurd (hget'.symm.trans hold) (by simp)
          | minted attempt =>
            simp only [State.step, Function.update_self] at hmint
            exact not_mayMint_of_target (target_of_works hworks) hmint
        · exact absurd hold (hrests.writes id hne).1
  · cases action with
    | finish i result =>
      refine h.dealt j id ?_ (mayMint_step _ hmint)
      by_cases hj : j = i
      · subst hj
        simp only [State.step, Function.update_self] at htarget
        exact target_finish htarget
      · simpa only [State.step, Function.update_of_ne hj] using htarget
    | crash i =>
      refine h.dealt j id ?_ (mayMint_step _ hmint)
      by_cases hj : j = i
      · subst hj
        simp only [State.step, Function.update_self] at htarget
        cases htarget
      · simpa only [State.step, Function.update_of_ne hj] using htarget
    | call i now =>
      by_cases hj : j = i
      · subst hj
        simp only [State.step, Function.update_self] at htarget
        obtain hold | ⟨attempt, rfl⟩ | ⟨record, hfind, hid, -⟩ := call_target htarget
        · exact h.dealt j id hold (mayMint_step _ hmint)
        · simp only [State.step, Function.update_self] at hmint
          exact not_mayMint_of_target htarget hmint
        · rw [← hid] at hmint
          exact h.stored _ record (hsound.find.mp hfind).1 (mayMint_step _ hmint)
      · simp only [State.step, Function.update_of_ne hj] at htarget
        exact h.dealt j id htarget (mayMint_step _ hmint)

theorem run_fresh (requests : Nat → Request) (actions : List Action) : Fresh (run requests actions) := by
  induction actions using List.reverseRecOn with
  | nil => exact initial_fresh
  | append_singleton before action ih =>
    rw [run_append]
    exact ih.step (run_sound requests before) action

end Minting

section Holders

variable {before : List Action} {action : Action}

/-- At a time at which its lease had run out, another executor took the record
over from this one. -/
def TakesOver (requests : Nat → Request) (i : Nat) (id : MintedId) (before : List Action) : Action → Prop
  | .call j now =>
    j ≠ i ∧ (run requests before).holders id = some i ∧ (run requests before).phases j = .stealing id ∧
      ∃ record ∈ (run requests before).records.get id, ∃ lease ∈ record.leaseExpiresAt, lease ≤ now
  | _ => False

instance : Decidable (TakesOver requests i id before action) :=
  match action with
  | .call j now => inferInstanceAs (Decidable (j ≠ i ∧ _ ∧ _ ∧ ∃ record ∈ _, ∃ lease ∈ _, lease ≤ now))
  | .finish _ _ => isFalse not_false
  | .crash _ => isFalse not_false

/-- The record by whose write an executor ends. -/
def ended : Phase → Option MintedId
  | .writing id _ _ => some id
  | _ => none

/-- An executor ends by a write to a stored record only if the record was not
taken over from it before. -/
def EndsInTime (requests : Nat → Request) (before : List Action) : Action → Prop
  | .call i _ => ∀ id ∈ ended ((run requests before).phases i), (run requests before).records.get id ≠ none →
    ¬ Once (TakesOver requests i id) before
  | _ => True

instance : Decidable (EndsInTime requests before action) :=
  match action with
  | .call i _ => inferInstanceAs (Decidable (∀ id ∈ _, _ → ¬ Once (TakesOver requests i id) before))
  | .finish _ _ => isTrue trivial
  | .crash _ => isTrue trivial

/-- What an action changes of the records is a record whose lease its executor
took last. -/
def ChangesHeld (requests : Nat → Request) (before : List Action) (action : Action) : Prop :=
  ∀ id, ((run requests before).step requests action).records.get id ≠ (run requests before).records.get id →
    ((run requests before).step requests action).holders id = some action.executor

/-- Whoever works on a record took its lease last, or lost it to a takeover. -/
theorem holds_or_taken (requests : Nat → Request) (actions : List Action) :
    ∀ i id, works ((run requests actions).phases i) = some id →
      (run requests actions).holders id = some i ∨ Once (TakesOver requests i id) actions := by
  induction actions using List.reverseRecOn with
  | nil =>
    intro i id h
    cases h
  | append_singleton before action ih =>
    intro j id hworks
    rw [run_append] at hworks ⊢
    rw [once_append]
    cases action with
    | finish i result =>
      refine (ih j id ?_).imp_right .inl
      by_cases hj : j = i
      · subst hj
        simp only [State.step, Function.update_self] at hworks
        exact works_finish hworks
      · simpa only [State.step, Function.update_of_ne hj] using hworks
    | crash i =>
      refine (ih j id ?_).imp_right .inl
      by_cases hj : j = i
      · subst hj
        simp only [State.step, Function.update_self] at hworks
        cases hworks
      · simpa only [State.step, Function.update_of_ne hj] using hworks
    | call i now =>
      obtain ⟨id', htakes, hacquired, hworks', -⟩ | hrests :=
        call_lease (requests i) i now (run requests before).records ((run requests before).phases i)
      · simp only [State.step, hacquired] at hworks ⊢
        by_cases hj : j = i
        · subst hj
          rw [Function.update_self, hworks', Option.some.injEq] at hworks
          rw [hworks, Function.update_self]
          exact .inl rfl
        · rw [Function.update_of_ne hj] at hworks
          by_cases hid : id = id'
          · subst hid
            obtain hholds | honce := ih j id hworks
            · refine .inr (.inr ?_)
              generalize hphase : (run requests before).phases i = phase at htakes
              cases htakes with
              | stolen _ record hget hexpired =>
                obtain ⟨-, hlease⟩ := (Bool.and_eq_true _ _).mp hexpired
                obtain ⟨lease, hsome, hle⟩ := (Option.any_eq_true _ _).mp hlease
                exact ⟨Ne.symm hj, hholds, hphase, record, hget, lease, hsome, of_decide_eq_true hle⟩
              | minted attempt =>
                have hmint := (run_fresh requests before).dealt j _ (target_of_works hworks)
                rw [hphase] at hmint
                exact absurd le_rfl hmint
            · exact .inr (.inl honce)
          · rw [Function.update_of_ne hid]
            exact (ih j id hworks).imp_right .inl
      · simp only [State.step, hrests.acquired] at hworks ⊢
        refine (ih j id ?_).imp_right .inl
        by_cases hj : j = i
        · subst hj
          rw [Function.update_self] at hworks
          exact hrests.works id hworks
        · rwa [Function.update_of_ne hj] at hworks

/-- In a run whose executors end in time, a record is changed by the holder of
its lease alone. -/
theorem record_changed_by_holder (requests : Nat → Request) (actions : List Action)
    (h : Always (EndsInTime requests) actions) : Always (ChangesHeld requests) actions := by
  intro before action after hsplit id hchanged
  cases action with
  | finish i result => exact absurd rfl hchanged
  | crash i => exact absurd rfl hchanged
  | call i now =>
    obtain ⟨id', -, hacquired, -, hframe⟩ | hrests :=
      call_lease (requests i) i now (run requests before).records ((run requests before).phases i)
    · obtain rfl : id = id' := by_contra fun hother => hchanged (hframe id hother)
      simp only [State.step, hacquired, Function.update_self]
      rfl
    · obtain ⟨hstored, write, result, hphase⟩ := hrests.writes id hchanged
      have hheld := holds_or_taken requests before i id (by rw [hphase]; rfl)
      simp only [State.step, hrests.acquired]
      exact hheld.resolve_right (h before (.call i now) after hsplit id (by rw [hphase]; rfl) hstored)

end Holders

section Sample

def sampleRequest : Request :=
  { environment := .PRODUCAO, apiKeyId := "key_1",
    endpointKey := "POST PixController.send", key := "order-0001"
    requestFingerprint := "f1", required := true, ttlSeconds := 604800, pod := "pod-1" }

def poor : BaasError := ⟨.INSUFFICIENT_FUNDS, "Saldo insuficiente para a operacao.", []⟩

/-- One request claims the record, and a second one takes over its lease. -/
def sampleTakeover : List Action :=
  [.call 0 0, .call 0 0, .call 1 91000, .call 1 91000, .call 1 91000, .call 1 91000, .call 1 91000]

/-- The second request completes the record, a third one is answered with what it
says, and the first one stops without a write. -/
theorem record_changed_by_holder_takeover :
    let actions := sampleTakeover ++ [.finish 1 (.error (.baas poor)), .call 1 92000, .call 2 93000, .call 2 93000,
      .call 2 93000, .crash 0]
    Always (ChangesHeld fun _ => sampleRequest) actions ∧
      ((run (fun _ => sampleRequest) actions).records.get ⟨0, 0⟩).map (·.state) = some .FAILED :=
  ⟨record_changed_by_holder _ _ (by decide), by decide⟩

/-- The first request fails late, and deletes the record under the second one. -/
theorem stale_release_deletes_record :
    ¬ ∀ (requests : Nat → Request) (actions : List Action), Always (ChangesHeld requests) actions := by
  intro h
  have hholder := h (fun _ => sampleRequest)
    (sampleTakeover ++ [.finish 0 (.error (.failure "ETIMEDOUT")), .call 0 92000])
    (sampleTakeover ++ [.finish 0 (.error (.failure "ETIMEDOUT"))]) (.call 0 92000) []
    rfl ⟨0, 0⟩ (by decide)
  exact absurd hholder (by decide)

end Sample

end BaasConnector.Idempotency.Leases
