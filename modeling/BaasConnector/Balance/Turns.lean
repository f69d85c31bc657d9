import BaasConnector.Balance.Reads
import BaasConnector.Lib.History

namespace BaasConnector.Balance.Turns

open BaasConnector.Balance.BypassRules BaasConnector.Balance.Service BaasConnector.Balance.Reads
open BaasConnector.Lib.History BaasConnector.Taxonomy.Errors

/-- Phases in which a read has no snapshot yet. It sleeps on the lock of Redis only. -/
def Waits (config : Config) : Phase → Prop
  | .sleeping _ => config.store = .redis
  | .flying | .fetching _ | .calling _ _ | .joining _ => True
  | _ => False

/-- A call that succeeds ends now. -/
def EndsAt (time : Nat) (outcome : Except Thrown Fetched) : Prop :=
  ∀ fresh, outcome = .ok fresh → fresh.ended = time

/-- What an action makes of a read. -/
inductive Turn (config : Config) (s : State) : Action → Read → Read → Prop
  | looked (id : Nat) (reply : Reply) (r : Read) :
    Turn config s (.move id (.lookUp reply)) r
      { r with cached := s.get config r.process reply, phase := .deciding }
  | served (id openHighSeverity : Nat) (lastEventAt : Option Int) (r : Read) (entry : CacheEntry Fetched)
      (hcached : r.cached = some entry) :
    Turn config s (.move id (.decide openHighSeverity lastEventAt)) r { r with
      phase := .done (.ok ⟨fromCache config s.now (plain entry), entry.value, .cache⟩) }
  | flew (id openHighSeverity : Nat) (lastEventAt : Option Int) (r : Read) (bypass : Option BypassReason) :
    Turn config s (.move id (.decide openHighSeverity lastEventAt)) r { r with bypass, phase := .flying }
  | waited (action : Action) (r : Read) (phase : Phase) (hphase : Waits config phase) :
    Turn config s action r { r with phase }
  | kept (action : Action) (r : Read) (outcome : Except Thrown Fetched) (hends : EndsAt s.time outcome) :
    Turn config s action r { r with phase := .unlocking outcome }
  | landed (action : Action) (r : Read) (outcome : Except Thrown Fetched) (hends : EndsAt s.time outcome) :
    Turn config s action r (r.land config s .provider outcome)
  | unlocked (id : Nat) (reply : Reply) (r : Read) (outcome : Except Thrown Fetched)
      (hphase : r.phase = .unlocking outcome) :
    Turn config s (.move id (.unlock reply)) r (r.land config s .provider outcome)
  | polled (id : Nat) (reply : Reply) (r : Read) (deadline : Int) (entry : CacheEntry Fetched)
      (hr : s.reads[id]? = some r) (hphase : r.phase = .sleeping deadline)
      (hget : s.get config r.process reply = some entry) :
    Turn config s (.move id (.poll reply)) r (r.land config s .cache (.ok entry.value))
  | wrote (id : Nat) (reply : Reply) (r : Read) (fresh : Fetched) (origin : Origin) (asOf : Int)
      (command : Command) (commands : List Command)
      (hphase : r.phase = .storing fresh origin asOf (command :: commands)) :
    Turn config s (.move id (.store reply)) r { r with phase := .storing fresh origin asOf commands }
  | finished (id : Nat) (r : Read) (fresh : Fetched) (origin : Origin) (asOf : Int)
      (hphase : r.phase = .storing fresh origin asOf []) :
    Turn config s (.move id .finish) r { r with
      phase := .done (.ok ⟨fromFlight config s.now fresh.snapshot asOf r.bypass, fresh, origin⟩) }

/-- A read as `start` leaves it. -/
def Started (s : State) (r : Read) : Prop :=
  r.began = s.time ∧ r.cached = none ∧ r.bypass = none ∧ r.phase = .looking

/-- A read after an action: one that was there, a new one, or what the action
makes of one that was there. -/
def Comes (config : Config) (s : State) (action : Action) (r' : Read) : Prop :=
  r' ∈ s.reads ∨ Started s r' ∨ ∃ r ∈ s.reads, Turn config s action r r'

variable {config : Config} {s s' : State} {action : Action} {id : Nat} {r r' : Read}

theorem comes_setRead (hr : s.reads[id]? = some r) (hturn : Turn config s action r r') :
    ∀ other ∈ (s.setRead id r').reads, Comes config s action other := by
  intro other hother
  obtain hold | rfl := List.mem_or_eq_of_mem_set hother
  · exact .inl hold
  · exact .inr (.inr ⟨r, List.mem_of_getElem? hr, hturn⟩)

theorem endsAt_error (time : Nat) (error : Thrown) : EndsAt time (.error error) := by
  intro fresh h
  cases h

theorem endsAt_map (time began : Nat) (reply : Except Thrown ProviderBalanceSnapshot) :
    EndsAt time (reply.map fun snapshot => ⟨snapshot, began, time⟩) := by
  intro fresh h
  cases reply with
  | error error => cases h
  | ok snapshot =>
    cases h
    rfl

theorem comes_land (hr : s.reads[id]? = some r) {outcome : Except Thrown Fetched}
    (hends : EndsAt s.time outcome) (locked : Bool) :
    ∀ other ∈ (s.land config id r locked outcome).reads, Comes config s action other := by
  unfold State.land
  cases config.store with
  | redis =>
    cases locked with
    | true => exact comes_setRead hr (.kept action r outcome hends)
    | false => exact comes_setRead hr (.landed action r outcome hends)
  | memory =>
    intro other hother
    obtain ⟨j, hj, rfl⟩ := List.mem_mapIdx.mp hother
    split
    · exact .inr (.inr ⟨s.reads[j], List.getElem_mem hj, .landed action _ outcome hends⟩)
    · exact .inl (List.getElem_mem hj)

theorem comes_enter (hr : s.reads[id]? = some r) (reply : Reply) :
    ∀ other ∈ (s.enter config id r reply).reads, Comes config s action other := by
  unfold State.enter
  cases hstore : config.store with
  | redis =>
    cases reply with
    | failed => exact comes_setRead hr (.waited action r _ trivial)
    | unheard => exact comes_setRead hr (.waited action r _ trivial)
    | answered =>
      simp only
      split
      · exact comes_setRead hr (.waited action r _ hstore)
      · exact comes_setRead hr (.waited action r _ trivial)
  | memory =>
    simp only
    split
    · exact comes_setRead hr (.waited action r _ trivial)
    · exact comes_setRead hr (.waited action r _ trivial)

theorem write_reads (process : Nat) (reply : Reply) (entry : CacheEntry Fetched) (command : Command) :
    (s.write config process reply entry command).reads = s.reads := by
  unfold State.write
  cases config.store with
  | redis => dsimp only; split <;> rfl
  | memory => cases command <;> rfl

theorem comes_advance {move : Move} (hr : s.reads[id]? = some r)
    (h : advance config s id r r.phase move = some s') :
    ∀ other ∈ s'.reads, Comes config s (.move id move) other := by
  unfold advance at h
  split at h
  · cases h
    exact comes_setRead hr (.looked id _ r)
  · dsimp only at h
    split at h
    · next entry hcached _ =>
      cases h
      exact comes_setRead hr (.served id _ _ r entry hcached)
    · cases h
      exact comes_setRead hr (.flew id _ _ r _)
  · cases h
    exact comes_enter hr _
  · cases h
    exact comes_setRead hr (.waited _ r _ trivial)
  · cases h
    exact comes_land hr (endsAt_error _ _) _
  · cases h
    exact comes_land hr (endsAt_map _ _ _) _
  · next outcome reply hphase =>
    cases h
    exact comes_setRead hr (.unlocked id reply r outcome hphase)
  · next deadline reply hphase =>
    split at h
    · next entry hget =>
      cases h
      exact comes_setRead hr (.polled id reply r deadline entry hr hphase hget)
    · split at h
      · cases h
        exact fun other hother => .inl hother
      · cases h
        exact comes_setRead hr (.waited _ r _ trivial)
  · next fresh origin asOf command commands reply hphase =>
    cases h
    intro other hother
    rw [State.setRead, write_reads] at hother
    exact comes_setRead hr (.wrote id reply r fresh origin asOf command commands hphase) other hother
  · next fresh origin asOf hphase =>
    cases h
    exact comes_setRead hr (.finished id r fresh origin asOf hphase)
  · cases h

theorem erase_eq_some {i : Nat} {reply : Reply} (h : next config s (.erase i reply) = some s') :
    config.store = .redis ∧ ∃ invalidation, s.invalidations[i]? = some invalidation ∧
      undo s i invalidation reply invalidation.stage = some s' := by
  unfold next at h
  cases hstore : config.store with
  | redis =>
    rw [hstore] at h
    exact ⟨rfl, Option.bind_eq_some_iff.mp h⟩
  | memory =>
    rw [hstore] at h
    cases h

theorem comes_next (h : next config s action = some s') : ∀ r' ∈ s'.reads, Comes config s action r' := by
  intro r' hr'
  cases action with
  | start process query authorizationPath lastEventAt =>
    obtain ⟨-, h⟩ := Option.ite_none_right_eq_some.mp h
    cases h
    obtain hold | hnew := List.mem_append.mp hr'
    · exact .inl hold
    · cases List.mem_singleton.mp hnew
      exact .inr (.inl ⟨rfl, rfl, rfl, rfl⟩)
  | move id move =>
    obtain ⟨r, hr, h⟩ := Option.bind_eq_some_iff.mp h
    exact comes_advance hr h r' hr'
  | invalidate process =>
    obtain ⟨-, h⟩ := Option.ite_none_right_eq_some.mp h
    cases h
    refine .inl ?_
    unfold State.invalidate at hr'
    cases hstore : config.store <;> simpa only [hstore, State.setMemory] using hr'
  | erase i reply =>
    obtain ⟨-, invalidation, -, h⟩ := erase_eq_some h
    cases hstage : invalidation.stage with
    | reading | unlinking =>
      rw [hstage] at h
      cases h
      exact .inl hr'
    | ended =>
      rw [hstage] at h
      cases h
  | tick ms =>
    cases h
    exact .inl hr'

/-- A read that fails serves nothing, or the entry that it looked up. -/
theorem land_error_answer {origin : Origin} {error : Thrown} {answer : Answer}
    (h : answer ∈ (r.land config s origin (.error error)).phase.answer) :
    answer.result.bypass = none ∧ answer.origin = .cache ∧
      ∃ entry, r.cached = some entry ∧ answer.fetched = entry.value := by
  cases hresult : onProviderFailure config s.now r.query (r.cached.map plain) error with
  | error thrown => simp [Read.land, hresult, Phase.answer, bind, Except.bind] at h
  | ok result =>
    cases hcached : r.cached with
    | none =>
      rw [hcached, Option.map_none] at hresult
      simp [Read.land, hcached, hresult, Phase.answer, bind, Except.bind] at h
    | some entry =>
      rw [hcached] at hresult
      simp only [Read.land, hcached, hresult, Phase.answer, bind, Except.bind, Option.mem_def,
        Option.some.injEq] at h
      subst h
      exact ⟨(onProviderFailure_bypass config s.now hresult).1, rfl, entry, rfl, rfl⟩

@[simp] theorem land_locals (origin : Origin) (outcome : Except Thrown Fetched) :
    (r.land config s origin outcome).began = r.began ∧ (r.land config s origin outcome).cached = r.cached ∧
      (r.land config s origin outcome).bypass = r.bypass := by
  cases outcome <;> exact ⟨rfl, rfl, rfl⟩

theorem step_eq_some_iff : step config s action = some s' ↔
    ∃ t, next config s action = some t ∧ { t with time := s.time + 1 } = s' :=
  Option.map_eq_some_iff

theorem comes_step (h : step config s action = some s') :
    s'.time = s.time + 1 ∧ ∀ r' ∈ s'.reads, Comes config s action r' := by
  obtain ⟨t, hnext, rfl⟩ := step_eq_some_iff.mp h
  have hreads := comes_next hnext
  exact ⟨rfl, hreads⟩

theorem after_append (start : State) (actions : List Action) (last : Action) :
    after config start (actions ++ [last]) = (after config start actions).bind (step config · last) := by
  rw [after, List.foldl_append]
  rfl

theorem after_cons {config : Config} {s s' : State} {action : Action} (h : step config s action = some s')
    (actions : List Action) : after config s (action :: actions) = after config s' actions := by
  rw [after, List.foldl_cons, Option.bind_some, h]
  rfl

/-- The run in which every action meets a condition on the state that it is taken in. -/
def Meets (config : Config) (start : State) (P : State → Action → Prop) (actions : List Action) : Prop :=
  Always (fun before action => ∀ u ∈ after config start before, P u action) actions

instance (start : State) (P : State → Action → Prop) [∀ s action, Decidable (P s action)]
    (actions : List Action) : Decidable (Meets config start P actions) :=
  inferInstanceAs (Decidable (Always _ actions))

theorem Meets.induction {start : State} {P : State → Action → Prop} {actions : List Action}
    {I : State → Prop} (h : Meets config start P actions) (hs : after config start actions = some s)
    (hstart : I start)
    (hstep : ∀ s action s', I s → P s action → step config s action = some s' → I s') : I s := by
  have hall : ∀ s, after config start actions = some s → I s := by
    refine Always.induction (I := fun actions => ∀ s, after config start actions = some s → I s) ?_ ?_ h
    · intro s hs
      cases hs
      exact hstart
    · intro actions action ih hmeets s hs
      rw [after_append, Option.bind_eq_some_iff] at hs
      obtain ⟨u, hu, hs⟩ := hs
      exact hstep u action s (ih u hu) (hmeets u hu) hs
  exact hall s hs

end BaasConnector.Balance.Turns
