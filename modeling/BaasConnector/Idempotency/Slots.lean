import BaasConnector.Idempotency.Executors

namespace BaasConnector.Idempotency.Slots

open BaasConnector.Lib.Keyed BaasConnector.Taxonomy.Errors BaasConnector.Connector.Records
open BaasConnector.Idempotency.Executors

/-- The record that a phase is about. -/
def target : Phase → Option MintedId
  | .stealing id => some id
  | .rereading id => some id
  | .executing id => id
  | .writing id _ _ => some id
  | _ => none

variable {requests : Nat → Request} {s t : State} {i : Nat} {id : MintedId} {now : Int}

def requestContent (request : Request) : Slot × String := (request.slot, request.requestFingerprint)

def recordContent (record : StoredRecord) : Slot × String := (record.slot, record.requestFingerprint)

/-- Each record has the slot and the fingerprint of the request that minted it and
is alone in its slot, and a request deals with the records of its own content. -/
structure Sound (requests : Nat → Request) (s : State) : Prop where
  contents : ∀ id record, s.records.get id = some record →
    recordContent record = requestContent (requests id.executor)
  alone : ∀ id id' record record', s.records.get id = some record → s.records.get id' = some record' →
    record.slot = record'.slot → id = id'
  targets : ∀ i id, target (s.phases i) = some id →
    requestContent (requests id.executor) = requestContent (requests i)

theorem Sound.slots (h : Sound requests s) {record : StoredRecord} (hget : s.records.get id = some record) :
    record.slot = (requests id.executor).slot := congrArg Prod.fst (h.contents id record hget)

theorem Sound.target_slot (h : Sound requests s) (htarget : target (s.phases i) = some id) :
    (requests id.executor).slot = (requests i).slot := congrArg Prod.fst (h.targets i id htarget)

theorem Sound.find (h : Sound requests s) {slot : Slot} {record : StoredRecord} :
    s.records.find slot = some record ↔ s.records.get record.id = some record ∧ record.slot = slot := by
  constructor
  · intro hfind
    obtain ⟨htest, hget⟩ := Rows.search_some hfind
    exact ⟨hget, of_decide_eq_true htest⟩
  · rintro ⟨hget, hslot⟩
    refine Rows.search_of_unique hget (decide_eq_true hslot) fun id' record' hget' htest => ?_
    have hslot' : record'.slot = slot := of_decide_eq_true htest
    exact h.alone _ _ record' record hget' hget (hslot'.trans hslot.symm)

section Call

variable {records : Records} {request : Request} {phase : Phase}

/-- What a call does to the records: nothing, a new record of the request's own,
or a write to the record that it is about. -/
inductive Effect (request : Request) (i : Nat) (records : Records) (phase : Phase) : Records → Prop
  | none : Effect request i records phase records
  | claimed (attempt : Nat) (now : Int) (hfree : records.find request.slot = .none) :
      Effect request i records phase (records.put (Executors.claimed request ⟨i, attempt⟩ now))
  | written (id : MintedId) (record record' : StoredRecord) (htarget : target phase = some id)
      (hget : records.get id = some record) (hid : record'.id = record.id)
      (hcontent : recordContent record' = recordContent record) :
      Effect request i records phase (records.put record')
  | deleted (id : MintedId) (htarget : target phase = some id) :
      Effect request i records phase (records.delete id)

theorem call_effect (request : Request) (i : Nat) (now : Int) (records : Records) (phase : Phase) :
    Effect request i records phase (call request i now records phase).records := by
  cases phase with
  | claiming attempt =>
    simp only [call, claim]
    cases hfind : records.find request.slot with
    | some record => exact .none
    | none => exact .claimed attempt now hfind
  | stealing id =>
    simp only [call, stealLease]
    cases hget : records.get id with
    | none => exact .none
    | some record =>
      by_cases hexpired : record.expired now = true
      · simp only [hexpired, if_true]
        exact .written id record _ rfl hget rfl rfl
      · simp only [hexpired, Bool.false_eq_true, if_false]
        exact .none
  | writing id write result =>
    simp only [call, stepped, Write.apply]
    cases hget : records.get id with
    | none => exact .none
    | some record =>
      cases write with
      | complete completion => exact .written id record _ rfl hget rfl rfl
      | renewLease => exact .written id record _ rfl hget rfl rfl
      | release => exact .deleted id rfl
  | finding attempt =>
    simp only [call]
    cases records.find request.slot <;> exact .none
  | rereading id =>
    simp only [call]
    cases records.get id <;> exact .none
  | arrived =>
    simp only [call]
    split
    · exact .none
    · split <;> exact .none
  | executing id => exact .none
  | answered answer => exact .none
  | crashed => exact .none

/-- The record that a request goes on to deal with: the one it dealt with, its
own new one, or one that it found in its slot. -/
theorem call_target (h : target (call request i now records phase).phase = some id) :
    target phase = some id ∨ (∃ attempt, id = ⟨i, attempt⟩) ∨
      ∃ record, records.find request.slot = some record ∧ record.id = id ∧
        record.requestFingerprint = request.requestFingerprint := by
  cases phase with
  | claiming attempt =>
    simp only [call, claim] at h
    cases hfind : records.find request.slot with
    | some record => simp [hfind, stepped, target] at h
    | none =>
      simp only [hfind, target, Option.some.injEq] at h
      exact .inr (.inl ⟨attempt, h.symm⟩)
  | finding attempt =>
    simp only [call] at h
    cases hfind : records.find request.slot with
    | none => simp [hfind, stepped, target] at h
    | some record =>
      simp only [hfind, stepped, resolveConflict] at h
      split at h
      · cases h
      · next hsame =>
        split at h
        · cases h
        · split at h
          · cases h
          · exact .inr (.inr ⟨record, rfl, Option.some.inj h, not_not.mp hsame⟩)
  | stealing id' =>
    simp only [call, stealLease] at h
    cases hget : records.get id' with
    | none => simp [hget, stepped, target] at h
    | some record =>
      simp only [hget] at h
      split at h
      · exact .inl h
      · cases h
  | rereading id' =>
    simp only [call] at h
    cases hget : records.get id' with
    | none => simp [hget, stepped, target] at h
    | some record =>
      have hid : record.id = id' := Rows.key_of_get hget
      simp only [hget, stepped, target, hid] at h
      exact .inl h
  | writing id' write result =>
    simp only [call, stepped] at h
    unfold afterWrite at h
    split at h
    · exact .inl h
    · cases h
    · cases h
    · cases h
  | arrived =>
    simp only [call] at h
    split at h
    · split at h <;> cases h
    · split at h <;> cases h
  | executing id' => exact .inl h
  | answered answer => cases h
  | crashed => cases h

end Call

section Soundness

theorem initial_sound : Sound requests initial where
  contents id record h := by cases h
  alone id id' record record' h := by cases h
  targets i id h := by cases h

theorem Sound.effect (h : Sound requests s) {records : Records}
    (heffect : Effect (requests i) i s.records (s.phases i) records) :
    (∀ id record, records.get id = some record →
      recordContent record = requestContent (requests id.executor)) ∧
      ∀ id id' record record', records.get id = some record → records.get id' = some record' →
        record.slot = record'.slot → id = id' := by
  cases heffect with
  | none => exact ⟨h.contents, h.alone⟩
  | claimed attempt now hfree =>
    have hnone : ∀ id record, s.records.get id = some record → record.slot ≠ (requests i).slot := by
      intro id record hget hslot
      have hfound := h.find.mpr ⟨by rw [Rows.key_of_get hget]; exact hget, hslot⟩
      rw [hfree] at hfound
      cases hfound
    have hput : ∀ id record, (s.records.put (claimed (requests i) ⟨i, attempt⟩ now)).get id = some record →
        id = ⟨i, attempt⟩ ∧ recordContent record = requestContent (requests i) ∨
          s.records.get id = some record := by
      intro id record hget
      rw [Rows.get_put] at hget
      by_cases hid : id = (claimed (requests i) ⟨i, attempt⟩ now).id
      · rw [if_pos hid, Option.some.injEq] at hget
        exact .inl ⟨hid, by rw [← hget]; rfl⟩
      · rw [if_neg hid] at hget
        exact .inr hget
    constructor
    · intro id record hget
      obtain ⟨rfl, hcontent⟩ | hold := hput id record hget
      · exact hcontent
      · exact h.contents id record hold
    · intro id id' record record' hget hget' hslot
      obtain ⟨rfl, hnew⟩ | hold := hput id record hget
      · obtain ⟨rfl, -⟩ | hold' := hput id' record' hget'
        · rfl
        · exact absurd (hslot.symm.trans (congrArg Prod.fst hnew)) (hnone id' record' hold')
      · obtain ⟨rfl, hnew'⟩ | hold' := hput id' record' hget'
        · exact absurd (hslot.trans (congrArg Prod.fst hnew')) (hnone id record hold)
        · exact h.alone id id' record record' hold hold' hslot
  | written id record record' htarget hget hid hcontent =>
    have hput : ∀ k r, (s.records.put record').get k = some r →
        ∃ r', s.records.get k = some r' ∧ recordContent r = recordContent r' := by
      intro k r hr
      rw [Rows.get_put] at hr
      by_cases hk : k = record'.id
      · rw [if_pos hk, Option.some.injEq] at hr
        refine ⟨record, ?_, by rw [← hr, hcontent]⟩
        rw [hk, hid, Rows.key_of_get hget]
        exact hget
      · rw [if_neg hk] at hr
        exact ⟨r, hr, rfl⟩
    constructor
    · intro k r hr
      obtain ⟨r', hr', hsame⟩ := hput k r hr
      rw [hsame]
      exact h.contents k r' hr'
    · intro k k' r r' hr hr' hsame
      obtain ⟨q, hq, hqs⟩ := hput k r hr
      obtain ⟨q', hq', hqs'⟩ := hput k' r' hr'
      exact h.alone k k' q q' hq hq' ((congrArg Prod.fst hqs).symm.trans
        (hsame.trans (congrArg Prod.fst hqs')))
  | deleted id htarget =>
    have hdelete : ∀ k r, (s.records.delete id).get k = some r → s.records.get k = some r := by
      intro k r hr
      rw [Rows.get_delete] at hr
      split at hr
      · cases hr
      · exact hr
    exact ⟨fun k r hr => h.contents k r (hdelete k r hr),
      fun k k' r r' hr hr' => h.alone k k' r r' (hdelete k r hr) (hdelete k' r' hr')⟩

theorem target_finish {phase : Phase} {result : Except Thrown (Nat × ResponseBody)}
    (h : target (finish phase result) = some id) : target phase = some id := by
  cases phase with
  | executing id' =>
    cases id' with
    | none => cases h
    | some id' => exact h
  | arrived | claiming | finding | stealing | rereading | writing | answered | crashed => exact h

theorem Sound.step (h : Sound requests s) (action : Action) : Sound requests (s.step requests action) := by
  cases action with
  | call i now =>
    obtain ⟨hcontents, halone⟩ := h.effect (call_effect (requests i) i now s.records (s.phases i))
    refine ⟨hcontents, halone, fun j id htarget => ?_⟩
    by_cases hj : j = i
    · subst hj
      simp only [State.step, Function.update_self] at htarget
      obtain hold | ⟨attempt, rfl⟩ | ⟨record, hfind, hid, hprint⟩ := call_target htarget
      · exact h.targets j id hold
      · rfl
      · obtain ⟨hget, hslot⟩ := h.find.mp hfind
        rw [← hid, ← h.contents _ record hget]
        exact Prod.ext hslot hprint
    · simp only [State.step, Function.update_of_ne hj] at htarget
      exact h.targets j id htarget
  | finish i result =>
    refine ⟨h.contents, h.alone, fun j id htarget => ?_⟩
    by_cases hj : j = i
    · subst hj
      simp only [State.step, Function.update_self] at htarget
      exact h.targets j id (target_finish htarget)
    · simp only [State.step, Function.update_of_ne hj] at htarget
      exact h.targets j id htarget
  | crash i =>
    refine ⟨h.contents, h.alone, fun j id htarget => ?_⟩
    by_cases hj : j = i
    · subst hj
      simp only [State.step, Function.update_self] at htarget
      cases htarget
    · simp only [State.step, Function.update_of_ne hj] at htarget
      exact h.targets j id htarget

theorem run_sound (requests : Nat → Request) (actions : List Action) :
    Sound requests (run requests actions) := by
  induction actions using List.reverseRecOn with
  | nil => exact initial_sound
  | append_singleton before action ih =>
    rw [run_append]
    exact ih.step action

end Soundness

end BaasConnector.Idempotency.Slots
