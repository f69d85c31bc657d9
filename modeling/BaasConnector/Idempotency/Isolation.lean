import BaasConnector.Idempotency.Slots

namespace BaasConnector.Idempotency.Replays

open BaasConnector.Lib.Keyed BaasConnector.Taxonomy.Errors BaasConnector.Connector.Records
open BaasConnector.Idempotency.Executors BaasConnector.Idempotency.Slots

variable {requests : Nat → Request} {s : State} {i : Nat} {id : MintedId} {now : Int}

/-- A response that a request of this content has recorded. -/
def Recorded (requests : Nat → Request) (actions : List Action)
    (content : Slot × String) (status : Option Nat)
    (body : Option ResponseBody) : Prop :=
  ∃ j result completion, .finish j result ∈ actions ∧ ending result = .complete completion ∧
    requestContent (requests j) = content ∧ status = some completion.status ∧ body = some completion.body

/-- A completion under way is that of the request's own handler, and a replayed
response was recorded for the content of the request. -/
structure PhaseTraced (requests : Nat → Request) (actions : List Action) (i : Nat)
    (phase : Phase) : Prop where
  ending : ∀ id completion result, phase = .writing id (.complete completion) result →
    .finish i result ∈ actions ∧ ending result = .complete completion
  replay : ∀ status body, phase = .answered (.replayed status body) →
    ∃ stored, Recorded requests actions (requestContent (requests i)) stored body ∧ status = stored.getD 200

/-- Where the stored and the replayed responses come from. -/
structure Traced (requests : Nat → Request) (actions : List Action) (s : State) : Prop where
  records : ∀ id record, s.records.get id = some record → record.state ≠ .IN_FLIGHT →
    Recorded requests actions (recordContent record) record.responseStatus record.responseBody
  phases : ∀ i, PhaseTraced requests actions i (s.phases i)

theorem Recorded.mono {actions : List Action} {content : Slot × String} {status : Option Nat}
    {body : Option ResponseBody} (h : Recorded requests actions content status body) (action : Action) :
    Recorded requests (actions ++ [action]) content status body := by
  obtain ⟨j, result, completion, hmem, hrest⟩ := h
  exact ⟨j, result, completion, List.mem_append_left _ hmem, hrest⟩

/-- A phase that says nothing of a response. -/
def silent : Phase → Bool
  | .writing _ (.complete _) _ => false
  | .answered (.replayed _ _) => false
  | _ => true

theorem PhaseTraced.mono {actions : List Action} {phase : Phase} (h : PhaseTraced requests actions i phase)
    (action : Action) : PhaseTraced requests (actions ++ [action]) i phase where
  ending id completion result hphase := by
    obtain ⟨hmem, hending⟩ := h.ending id completion result hphase
    exact ⟨List.mem_append_left _ hmem, hending⟩
  replay status body hphase := by
    obtain ⟨stored, hrecorded, hstatus⟩ := h.replay status body hphase
    exact ⟨stored, hrecorded.mono action, hstatus⟩

theorem PhaseTraced.of_silent {actions : List Action} {phase : Phase} (h : silent phase = true) :
    PhaseTraced requests actions i phase where
  ending id completion result hphase := by
    rw [hphase] at h
    cases h
  replay status body hphase := by
    rw [hphase] at h
    cases h

theorem silent_finish_or (phase : Phase) (result : Except Thrown (Nat × ResponseBody)) :
    finish phase result = phase ∨ silent (finish phase result) = true ∨
      ∃ id completion, finish phase result = .writing id (.complete completion) result ∧
        ending result = .complete completion := by
  cases phase with
  | executing id =>
    cases id with
    | none => exact .inr (.inl rfl)
    | some id =>
      cases hending : ending result with
      | complete completion => exact .inr (.inr ⟨id, completion, by rw [finish, hending], rfl⟩)
      | renewLease => exact .inr (.inl (by rw [finish, hending]; rfl))
      | release => exact .inr (.inl (by rw [finish, hending]; rfl))
  | arrived | claiming | finding | stealing | rereading | writing | answered | crashed => exact .inl rfl

/-- What a call answers with, if it replays a response, and what it stores. -/
theorem call_traced (i : Nat) (now : Int) (request : Request) (records : Records) (phase : Phase) :
    (silent (call request i now records phase).phase = true ∨
      (call request i now records phase).phase = phase ∨
      ∃ record, records.find request.slot = some record ∧
        record.requestFingerprint = request.requestFingerprint ∧ record.state ≠ .IN_FLIGHT ∧
        (call request i now records phase).phase =
          .answered (.replayed (record.responseStatus.getD 200) record.responseBody)) ∧
    ∀ id record, (call request i now records phase).records.get id = some record → record.state ≠ .IN_FLIGHT →
      (∃ old, records.get id = some old ∧ old.state ≠ .IN_FLIGHT ∧ recordContent record = recordContent old ∧
        record.responseStatus = old.responseStatus ∧ record.responseBody = old.responseBody) ∨
      ∃ completion result old, phase = .writing id (.complete completion) result ∧ records.get id = some old ∧
        recordContent record = recordContent old ∧
        record.responseStatus = some completion.status ∧ record.responseBody = some completion.body := by
  have hsame : ∀ id record, records.get id = some record → record.state ≠ .IN_FLIGHT →
      (∃ old, records.get id = some old ∧ old.state ≠ .IN_FLIGHT ∧ recordContent record = recordContent old ∧
        record.responseStatus = old.responseStatus ∧ record.responseBody = old.responseBody) ∨
      ∃ completion result old, phase = .writing id (.complete completion) result ∧ records.get id = some old ∧
        recordContent record = recordContent old ∧
        record.responseStatus = some completion.status ∧ record.responseBody = some completion.body :=
    fun id record hget hstate => .inl ⟨record, hget, hstate, rfl, rfl, rfl⟩
  cases phase with
  | claiming attempt =>
    simp only [call, claim]
    cases hfind : records.find request.slot with
    | some record => exact ⟨.inl rfl, hsame⟩
    | none =>
      refine ⟨.inl rfl, fun id record hget hstate => ?_⟩
      rw [Rows.get_put] at hget
      split at hget
      · rw [← Option.some.inj hget] at hstate
        exact absurd rfl hstate
      · exact hsame id record hget hstate
  | finding attempt =>
    simp only [call]
    cases hfind : records.find request.slot with
    | none => exact ⟨.inl rfl, hsame⟩
    | some record =>
      refine ⟨?_, hsame⟩
      simp only [stepped, resolveConflict]
      by_cases hprint : record.requestFingerprint = request.requestFingerprint
      · by_cases hstate : record.state = .IN_FLIGHT
        · simp only [hprint, hstate, ne_eq, not_true_eq_false, if_false]
          split <;> exact .inl rfl
        · exact .inr (.inr ⟨record, rfl, hprint, hstate, by simp [hprint, hstate]⟩)
      · exact .inl (by simp [hprint, silent])
  | stealing id' =>
    simp only [call, stealLease]
    cases hold : records.get id' with
    | none => exact ⟨.inl rfl, hsame⟩
    | some old =>
      by_cases hexpired : old.expired now = true
      · simp only [hexpired, if_true]
        refine ⟨.inl rfl, fun id record hget hstate => ?_⟩
        rw [Rows.get_put] at hget
        split at hget
        · next hid =>
          have hkey : old.id = id' := Rows.key_of_get hold
          have hid' : id = id' := hid.trans hkey
          rw [← Option.some.inj hget] at hstate ⊢
          exact .inl ⟨old, by rw [hid', hold], hstate, rfl, rfl, rfl⟩
        · exact hsame id record hget hstate
      · simp only [hexpired, Bool.false_eq_true, if_false]
        exact ⟨.inl rfl, hsame⟩
  | rereading id' =>
    simp only [call]
    cases records.get id' <;> exact ⟨.inl rfl, hsame⟩
  | writing id' write result =>
    have hphase : silent (call request i now records (.writing id' write result)).phase = true := by
      simp only [call, stepped]
      unfold afterWrite
      split <;> rfl
    refine ⟨.inl hphase, fun id record hget hstate => ?_⟩
    simp only [call, stepped, Write.apply] at hget
    cases hold : records.get id' with
    | none =>
      rw [hold] at hget
      exact hsame id record hget hstate
    | some old =>
      have hkey : old.id = id' := Rows.key_of_get hold
      rw [hold] at hget
      cases write with
      | complete completion =>
        simp only [Rows.get_put] at hget
        split at hget
        · next hid =>
          have hid' : id = id' := hid.trans hkey
          rw [← Option.some.inj hget, hid']
          exact .inr ⟨completion, result, old, rfl, hold, rfl, rfl, rfl⟩
        · exact hsame id record hget hstate
      | renewLease =>
        simp only [Rows.get_put] at hget
        split at hget
        · next hid =>
          have hid' : id = id' := hid.trans hkey
          rw [← Option.some.inj hget] at hstate ⊢
          exact .inl ⟨old, by rw [hid', hold], hstate, rfl, rfl, rfl⟩
        · exact hsame id record hget hstate
      | release =>
        simp only [Rows.get_delete] at hget
        split at hget
        · cases hget
        · exact hsame id record hget hstate
  | arrived =>
    simp only [call]
    split
    · split <;> exact ⟨.inl rfl, hsame⟩
    · split <;> exact ⟨.inl rfl, hsame⟩
  | executing id' => exact ⟨.inr (.inl rfl), hsame⟩
  | answered answer => exact ⟨.inr (.inl rfl), hsame⟩
  | crashed => exact ⟨.inl rfl, hsame⟩

section Run

variable {actions : List Action}

theorem update_traced {phase : Phase} {action : Action} (h : ∀ j, PhaseTraced requests actions j (s.phases j))
    (hphase : PhaseTraced requests (actions ++ [action]) i phase) (j : Nat) :
    PhaseTraced requests (actions ++ [action]) j (Function.update s.phases i phase j) := by
  by_cases hj : j = i
  · subst hj
    rwa [Function.update_self]
  · rw [Function.update_of_ne hj]
    exact (h j).mono action

theorem Traced.step (h : Traced requests actions s) (hs : Sound requests s) (action : Action) :
    Traced requests (actions ++ [action]) (s.step requests action) := by
  have hrecords : ∀ id record, s.records.get id = some record → record.state ≠ .IN_FLIGHT →
      Recorded requests (actions ++ [action]) (recordContent record) record.responseStatus
        record.responseBody :=
    fun id record hget hstate => (h.records id record hget hstate).mono action
  cases action with
  | call i now =>
    obtain ⟨hphase, hstored⟩ := call_traced i now (requests i) s.records (s.phases i)
    refine ⟨fun id record hget hstate => ?_, update_traced h.phases ?_⟩
    · obtain ⟨old, hget', hstate', hcontent, hstatus, hbody⟩ |
        ⟨completion, result, old, hwriting, hget', hcontent, hstatus, hbody⟩ := hstored id record hget hstate
      · rw [hcontent, hstatus, hbody]
        exact hrecords id old hget' hstate'
      · obtain ⟨hmem, hending⟩ := (h.phases i).ending id completion result hwriting
        have htarget : target (s.phases i) = some id := by
          rw [hwriting]
          rfl
        refine ⟨i, result, completion, List.mem_append_left _ hmem, hending, ?_, hstatus, hbody⟩
        rw [hcontent, hs.contents id old hget', hs.targets i id htarget]
    · obtain hsilent | hsame | ⟨record, hfind, hprint, hstate, hreplay⟩ := hphase
      · exact .of_silent hsilent
      · rw [hsame]
        exact (h.phases i).mono _
      · obtain ⟨hget, hslot⟩ := hs.find.mp hfind
        rw [hreplay]
        have hcontent : recordContent record = requestContent (requests i) := Prod.ext hslot hprint
        refine ⟨fun _ _ _ hphase => (by cases hphase), fun status body hphase => ?_⟩
        cases hphase
        exact ⟨record.responseStatus, hcontent ▸ hrecords _ record hget hstate, rfl⟩
  | finish i result =>
    refine ⟨hrecords, update_traced h.phases ?_⟩
    obtain hsame | hsilent | ⟨id, completion, hwriting, hending⟩ := silent_finish_or (s.phases i) result
    · rw [hsame]
      exact (h.phases i).mono _
    · exact .of_silent hsilent
    · rw [hwriting]
      refine ⟨fun id' completion' result' hphase => ?_, fun _ _ hphase => by cases hphase⟩
      cases hphase
      exact ⟨List.mem_append_right _ (List.mem_singleton_self _), hending⟩
  | crash i => exact ⟨hrecords, update_traced h.phases (.of_silent rfl)⟩

theorem run_traced (requests : Nat → Request) (actions : List Action) :
    Traced requests actions (run requests actions) := by
  induction actions using List.reverseRecOn with
  | nil =>
    refine ⟨fun id record h => ?_, fun i => .of_silent rfl⟩
    cases h
  | append_singleton before action ih =>
    rw [run_append]
    exact ih.step (run_sound requests before) action

end Run

end BaasConnector.Idempotency.Replays

namespace BaasConnector.Idempotency.Isolation

open BaasConnector.Lib.Keyed BaasConnector.Taxonomy.Errors BaasConnector.Connector.Records
open BaasConnector.Idempotency.Executors BaasConnector.Idempotency.Slots
open BaasConnector.Idempotency.Replays

variable {requests : Nat → Request} {s t : State} {i : Nat} {id : MintedId} {now : Int}

variable {slot : Slot}

/-- Two states that the requests of a slot cannot tell apart. -/
structure Alike (requests : Nat → Request) (slot : Slot) (s t : State) : Prop where
  phases : ∀ i, (requests i).slot = slot → s.phases i = t.phases i
  records : ∀ id, (requests id.executor).slot = slot → s.records.get id = t.records.get id

theorem Alike.find (h : Alike requests slot s t) (hs : Sound requests s) (ht : Sound requests t) :
    s.records.find slot = t.records.find slot := by
  ext record
  rw [hs.find, ht.find]
  constructor
  · rintro ⟨hget, hslot⟩
    have hmint : (requests record.id.executor).slot = slot := by rw [← hs.slots hget, hslot]
    exact ⟨by rw [← h.records _ hmint]; exact hget, hslot⟩
  · rintro ⟨hget, hslot⟩
    have hmint : (requests record.id.executor).slot = slot := by rw [← ht.slots hget, hslot]
    exact ⟨by rw [h.records _ hmint]; exact hget, hslot⟩

/-- A call sees of the records its slot and the record that it is about. -/
theorem call_alike (i : Nat) (now : Int) {request : Request} {records records' : Records} {phase : Phase}
    (hfind : records.find request.slot = records'.find request.slot)
    (htarget : ∀ id, target phase = some id → records.get id = records'.get id) :
    (call request i now records phase).phase = (call request i now records' phase).phase ∧
      ∀ id, records.get id = records'.get id →
        (call request i now records phase).records.get id =
          (call request i now records' phase).records.get id := by
  cases phase with
  | claiming attempt =>
    simp only [call, claim, ← hfind]
    cases records.find request.slot with
    | some record => exact ⟨rfl, fun id h => h⟩
    | none =>
      refine ⟨rfl, fun id h => ?_⟩
      simp only [Rows.get_put, h]
  | finding attempt =>
    simp only [call, ← hfind]
    cases records.find request.slot <;> exact ⟨rfl, fun id h => h⟩
  | stealing id' =>
    simp only [call, stealLease, ← htarget id' rfl]
    cases records.get id' with
    | none => exact ⟨rfl, fun id h => h⟩
    | some record =>
      by_cases hexpired : record.expired now = true
      · simp only [hexpired, if_true]
        refine ⟨trivial, fun id h => ?_⟩
        simp only [Rows.get_put, h]
      · simp only [hexpired, Bool.false_eq_true, if_false]
        exact ⟨rfl, fun id h => h⟩
  | rereading id' =>
    simp only [call, ← htarget id' rfl]
    cases records.get id' <;> exact ⟨rfl, fun id h => h⟩
  | writing id' write result =>
    simp only [call, stepped, Write.apply, ← htarget id' rfl]
    cases records.get id' with
    | none => exact ⟨rfl, fun id h => h⟩
    | some record =>
      cases write with
      | complete completion =>
        refine ⟨rfl, fun id h => ?_⟩
        simp only [Rows.get_put, h]
      | renewLease =>
        refine ⟨rfl, fun id h => ?_⟩
        simp only [Rows.get_put, h]
      | release =>
        refine ⟨rfl, fun id h => ?_⟩
        simp only [Rows.get_delete, h]
  | arrived =>
    simp only [call]
    split
    · exact ⟨rfl, fun id h => h⟩
    · split <;> exact ⟨rfl, fun id h => h⟩
  | executing id' => exact ⟨rfl, fun id h => h⟩
  | answered answer => exact ⟨rfl, fun id h => h⟩
  | crashed => exact ⟨rfl, fun id h => h⟩

theorem update_alike {phase phase' : Phase} (hphases : ∀ j, (requests j).slot = slot →
      s.phases j = t.phases j)
    (hsame : phase = phase') (j : Nat) (hj : (requests j).slot = slot) :
    Function.update s.phases i phase j = Function.update t.phases i phase' j := by
  by_cases hji : j = i
  · subst hji
    rw [Function.update_self, Function.update_self, hsame]
  · rw [Function.update_of_ne hji, Function.update_of_ne hji]
    exact hphases j hj

theorem Alike.step (h : Alike requests slot s t) (hs : Sound requests s)
    (ht : Sound requests t) (action : Action)
    (hslot : (requests action.executor).slot = slot) :
    Alike requests slot (s.step requests action) (t.step requests action) := by
  cases action with
  | call i now =>
    change (requests i).slot = slot at hslot
    have hphase := h.phases i hslot
    obtain ⟨hnext, hrecords⟩ := call_alike i now
      (by rw [hslot]; exact h.find hs ht)
      (fun id htarget => h.records id ((hs.target_slot htarget).trans hslot))
    simp only [State.step, ← hphase]
    exact ⟨update_alike h.phases hnext, fun id hid => hrecords id (h.records id hid)⟩
  | finish i result =>
    have hphase := h.phases i hslot
    exact ⟨update_alike h.phases (by rw [hphase]), h.records⟩
  | crash i => exact ⟨update_alike h.phases rfl, h.records⟩

/-- A request of another slot changes nothing that the slot can see. -/
theorem Alike.other (h : Alike requests slot s t) (hs : Sound requests s) (action : Action)
    (hslot : (requests action.executor).slot ≠ slot) : Alike requests slot (s.step requests action) t := by
  have hphases : ∀ phase j, (requests j).slot = slot →
      Function.update s.phases action.executor phase j = t.phases j := by
    intro phase j hj
    have hne : j ≠ action.executor := by
      rintro rfl
      exact hslot hj
    rw [Function.update_of_ne hne]
    exact h.phases j hj
  cases action with
  | call i now =>
    refine ⟨hphases _, fun id hid => ?_⟩
    rw [← h.records id hid]
    have hown : ∀ k, (requests k.executor).slot = (requests i).slot → id ≠ k := by
      rintro k hk rfl
      exact hslot (hk.symm.trans hid)
    have heffect := call_effect (requests i) i now s.records (s.phases i)
    change (call (requests i) i now s.records (s.phases i)).records.get id = _
    generalize (call (requests i) i now s.records (s.phases i)).records = records at heffect ⊢
    cases heffect with
    | none => rfl
    | claimed attempt now hfree => exact Rows.get_put_ne _ _ (hown _ rfl)
    | written k record record' htarget hget hrecord _ =>
      refine Rows.get_put_ne _ _ (hown _ ?_)
      rw [hrecord, Rows.key_of_get hget]
      exact hs.target_slot htarget
    | deleted k htarget =>
      rw [Rows.get_delete, if_neg (hown k (hs.target_slot htarget))]
  | finish i result => exact ⟨hphases _, h.records⟩
  | crash i => exact ⟨hphases _, h.records⟩

/-- The actions of the requests of one slot. -/
def purge (requests : Nat → Request) (slot : Slot) (actions : List Action) : List Action :=
  actions.filter fun action => decide ((requests action.executor).slot = slot)

theorem run_purge_alike (requests : Nat → Request) (slot : Slot) (actions : List Action) :
    Alike requests slot (run requests actions) (run requests (purge requests slot actions)) := by
  induction actions using List.reverseRecOn with
  | nil => exact ⟨fun _ _ => rfl, fun _ _ => rfl⟩
  | append_singleton before action ih =>
    rw [run_append, purge, List.filter_append]
    by_cases hslot : (requests action.executor).slot = slot
    · rw [List.filter_cons_of_pos (by simp [hslot]), List.filter_nil, run_append]
      exact ih.step (run_sound requests before) (run_sound requests _) action hslot
    · rw [List.filter_cons_of_neg (by simp [hslot]), List.filter_nil, List.append_nil]
      exact ih.other (run_sound requests before) action hslot

/-- What becomes of a request depends on the requests of its environment, endpoint
and key alone; and a response that is replayed to it was recorded for a request of
the same environment, endpoint, key and fingerprint. -/
theorem requests_isolated_by_slot (requests : Nat → Request) (actions : List Action) (i : Nat) :
    (run requests actions).phases i = (run requests (purge requests (requests i).slot actions)).phases i ∧
      ∀ status body, (run requests actions).phases i = .answered (.replayed status body) →
        ∃ j result completion, .finish j result ∈ actions ∧ ending result = .complete completion ∧
          (requests j).slot = (requests i).slot ∧
          (requests j).requestFingerprint = (requests i).requestFingerprint ∧
          status = completion.status ∧ body = some completion.body := by
  refine ⟨(run_purge_alike requests (requests i).slot actions).phases i rfl, fun status body hphase => ?_⟩
  obtain ⟨stored, ⟨j, result, completion, hmem, hending, hcontent, hstored, hbody⟩, hstatus⟩ :=
    ((run_traced requests actions).phases i).replay status body hphase
  rw [hstored, Option.getD_some] at hstatus
  exact ⟨j, result, completion, hmem, hending, congrArg Prod.fst hcontent,
    congrArg Prod.snd hcontent, hstatus, hbody⟩

section Sample

def sampleKeys (i : Nat) : Request :=
  { environment := .PRODUCAO, apiKeyId := if i = 0 then "key_1" else "key_2"
    endpointKey := "POST PixController.send", key := "order-0001", requestFingerprint :=
      "f1", required := true
    ttlSeconds := 604800, pod := "pod-1" }

def sampleResponse : Nat × ResponseBody := (409, .error { code := .RESOURCE_NOT_FOUND, message := "" })

/-- A request of the first key is completed, and then one of the second key comes. -/
def sampleActions : List Action :=
  [.call 0 0, .call 0 0, .finish 0 (.ok sampleResponse), .call 0 0, .call 1 0, .call 1 0, .call 1 0]

/-- The second key is given the response of the first one's request. -/
theorem response_of_other_key_replayed :
    ¬ ∀ (requests : Nat → Request) (actions : List Action) (i : Nat),
      (run requests actions).phases i = (run requests (actions.filter fun action =>
        decide ((requests action.executor).apiKeyId = (requests i).apiKeyId))).phases i := by
  intro h
  exact absurd (h sampleKeys sampleActions 1) (by decide)

end Sample

end BaasConnector.Idempotency.Isolation
