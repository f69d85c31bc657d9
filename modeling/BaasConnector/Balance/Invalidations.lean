import BaasConnector.Balance.Freshness

namespace BaasConnector.Balance.Invalidations

open BaasConnector.Balance.BypassRules BaasConnector.Balance.Service BaasConnector.Balance.Reads
open BaasConnector.Balance.Turns BaasConnector.Balance.Freshness BaasConnector.Taxonomy.Errors

/-- The call of the snapshot began no earlier than any invalidation that ended
before the bound. -/
def Outlives (s : State) (bound : Nat) (fresh : Fetched) : Prop :=
  ∀ invalidation ∈ s.invalidations, ∀ time ∈ invalidation.stage.ending, time < bound →
    invalidation.began ≤ fresh.began

instance (s : State) (bound : Nat) (fresh : Fetched) : Decidable (Outlives s bound fresh) :=
  inferInstanceAs (Decidable (∀ invalidation ∈ s.invalidations, ∀ time ∈ invalidation.stage.ending, _ → _))

/-- An answer out of the cache is not older than an invalidation that ended
before the read began. -/
def Current (s : State) (r : Read) : Prop :=
  ∀ answer ∈ r.phase.answer, answer.origin = .cache → Outlives s r.began answer.fetched

instance (s : State) (r : Read) : Decidable (Current s r) :=
  inferInstanceAs (Decidable (∀ answer ∈ r.phase.answer, _ → _))

section Condition

variable (config : Config) (s : State)

/-- What the stores hold for the account. -/
def held : List Slot :=
  match config.store with
  | .redis => s.redis.value.toList
  | .memory => s.memories.filterMap (·.slot)

/-- The snapshot that an action puts in a store. -/
def written : Action → Option Fetched
  | .move id (.store reply) => s.reads[id]?.bind fun r =>
    match r.phase with
    | .storing fresh _ _ (.set :: _) => if config.store = .redis ∧ reply = .failed then none else some fresh
    | _ => none
  | _ => none

/-- When the action ends an invalidation without removing all that the stores
hold: the time the invalidation began, and what is left. Redis keeps the value
when a command fails or the tag did not list the key, the memory store that of
the other processes. -/
def left : Action → Option (Nat × List Slot)
  | .invalidate process =>
    match config.store with
    | .redis => none
    | .memory => some (s.time, (s.memories.eraseIdx process).filterMap (·.slot))
  | .erase i reply => s.invalidations[i]?.bind fun invalidation =>
    match invalidation.stage with
    | .reading => if reply = .answered then none else some (invalidation.began, held config s)
    | .unlinking hasKey =>
      if hasKey ∧ reply ≠ .failed then none else some (invalidation.began, held config s)
    | .ended _ => none
  | _ => none

/-- No value is written that is older than an invalidation that has ended, and no
invalidation leaves a value that is older than itself. -/
def Effective (action : Action) : Prop :=
  (∀ fresh ∈ written config s action, Outlives s s.time fresh) ∧
    ∀ rest ∈ left config s action, ∀ slot ∈ rest.2, rest.1 ≤ slot.entry.value.began

instance (action : Action) : Decidable (Effective config s action) :=
  inferInstanceAs (Decidable ((∀ fresh ∈ written config s action, Outlives s s.time fresh) ∧
    ∀ rest ∈ left config s action, ∀ slot ∈ rest.2, rest.1 ≤ slot.entry.value.began))

end Condition

section Stores

variable {config : Config} {s s' : State} {action : Action} {id : Nat} {r : Read}

theorem memory_slot {process : Nat} {slot : Slot} (h : (s.memory process).slot = some slot) :
    slot ∈ s.memories.filterMap (·.slot) := by
  unfold State.memory at h
  rw [List.getD_eq_getElem?_getD] at h
  cases hm : s.memories[process]? with
  | none => simp [hm] at h
  | some memory =>
    rw [hm, Option.getD_some] at h
    exact List.mem_filterMap.mpr ⟨memory, List.mem_of_getElem? hm, h⟩

theorem get_held {process : Nat} {reply : Reply} {entry : CacheEntry Fetched}
    (h : s.get config process reply = some entry) : ∃ slot ∈ held config s, slot.entry = entry := by
  unfold State.get at h
  unfold held
  cases hstore : config.store with
  | redis =>
    simp only [hstore, Option.ite_none_right_eq_some, Option.map_eq_some_iff] at h
    obtain ⟨-, slot, hslot, hentry⟩ := h
    exact ⟨slot, by simp [hslot], hentry⟩
  | memory =>
    simp only [hstore, Option.map_eq_some_iff] at h
    obtain ⟨slot, hslot, hentry⟩ := h
    exact ⟨slot, memory_slot hslot, hentry⟩

theorem filterMap_set {process : Nat} {memory : Memory} {slot : Slot}
    (h : slot ∈ (s.memories.set process memory).filterMap (·.slot)) :
    slot ∈ s.memories.filterMap (·.slot) ∨ memory.slot = some slot := by
  obtain ⟨other, hother, hslot⟩ := List.mem_filterMap.mp h
  obtain hold | rfl := List.mem_or_eq_of_mem_set hother
  · exact .inl (List.mem_filterMap.mpr ⟨other, hold, hslot⟩)
  · exact .inr hslot

/-- What a move may change in the stores: it writes its own snapshot at most. -/
structure Quiet (config : Config) (s : State) (action : Action) (s' : State) : Prop where
  invalidations : s'.invalidations = s.invalidations
  held : ∀ slot ∈ held config s', slot ∈ held config s ∨ slot.entry.value ∈ written config s action

theorem quiet_of_slots (hi : s'.invalidations = s.invalidations) (hvalue : s'.redis.value = s.redis.value)
    (hslots : ∀ slot ∈ s'.memories.filterMap (·.slot), slot ∈ s.memories.filterMap (·.slot)) :
    Quiet config s action s' := by
  refine ⟨hi, fun slot hslot => .inl ?_⟩
  unfold held at hslot ⊢
  cases hstore : config.store with
  | redis => simpa only [hstore, hvalue] using hslot
  | memory =>
    simp only [hstore] at hslot
    exact hslots slot hslot

theorem quiet_setRead (r' : Read) : Quiet config s action (s.setRead id r') :=
  quiet_of_slots rfl rfl fun _ hslot => hslot

theorem slots_inFlight {process : Nat} {inFlight : Option Nat} {slot : Slot}
    (h : slot ∈ (s.memories.set process { s.memory process with inFlight }).filterMap (·.slot)) :
    slot ∈ s.memories.filterMap (·.slot) := by
  obtain hold | hslot := filterMap_set h
  · exact hold
  · exact memory_slot hslot

theorem quiet_land (locked : Bool) (outcome : Except Thrown Fetched) :
    Quiet config s action (s.land config id r locked outcome) := by
  unfold State.land
  cases config.store with
  | redis => exact quiet_setRead _
  | memory => exact quiet_of_slots rfl rfl fun _ => slots_inFlight

theorem quiet_enter (reply : Reply) : Quiet config s action (s.enter config id r reply) := by
  unfold State.enter
  cases config.store with
  | redis =>
    cases reply with
    | failed => exact quiet_setRead _
    | unheard => exact quiet_of_slots rfl rfl fun _ hslot => hslot
    | answered =>
      dsimp only
      split
      · exact quiet_setRead _
      · exact quiet_of_slots rfl rfl fun _ hslot => hslot
  | memory =>
    dsimp only
    split
    · exact quiet_setRead _
    · exact quiet_of_slots rfl rfl fun _ => slots_inFlight

theorem run_value (ttlSeconds now : Int) (entry : CacheEntry Fetched) (redis : Redis) (command : Command) :
    (redis.run ttlSeconds now entry command).value = redis.value ∨
      command = .set ∧ ∃ expiresAt, (redis.run ttlSeconds now entry command).value =
        some ⟨entry, expiresAt⟩ := by
  cases command with
  | sadd | expire => exact .inl rfl
  | set =>
    unfold Redis.run
    dsimp only
    split
    · exact .inr ⟨rfl, _, rfl⟩
    · exact .inl rfl

theorem held_write {reply : Reply} {entry : CacheEntry Fetched} {command : Command} {slot : Slot}
    (h : slot ∈ held config (s.write config r.process reply entry command)) :
    slot ∈ held config s ∨ slot.entry = entry ∧ command = .set ∧
    ¬ (config.store = .redis ∧ reply = .failed) := by
  unfold held State.write at h
  unfold held
  cases hstore : config.store with
  | redis =>
    simp only [hstore] at h ⊢
    split at h
    · exact .inl h
    · next hreply =>
      obtain hsame | ⟨hcommand, expiresAt, hnew⟩ :=
        run_value config.balanceCacheTtlSeconds s.now entry s.redis command
      · rw [hsame] at h
        exact .inl h
      · rw [hnew, Option.toList_some, List.mem_singleton] at h
        exact .inr ⟨by rw [h], hcommand, fun hfailed => hreply hfailed.2⟩
  | memory =>
    simp only [hstore] at h ⊢
    cases command with
    | sadd | expire => exact .inl h
    | set =>
      obtain hold | hslot := filterMap_set h
      · exact .inl hold
      · obtain ⟨-, hslot⟩ := Option.ite_none_right_eq_some.mp hslot
        cases hslot
        exact .inr ⟨rfl, rfl, by simp⟩

theorem quiet_advance {move : Move} (hr : s.reads[id]? = some r)
    (h : advance config s id r r.phase move = some s') : Quiet config s (.move id move) s' := by
  unfold advance at h
  split at h
  · cases h
    exact quiet_setRead _
  · dsimp only at h
    split at h
    · cases h
      exact quiet_setRead _
    · cases h
      exact quiet_setRead _
  · cases h
    exact quiet_enter _
  · cases h
    exact quiet_setRead _
  · cases h
    exact quiet_land _ _
  · cases h
    exact quiet_land _ _
  · cases h
    exact quiet_of_slots rfl rfl fun _ hslot => hslot
  · split at h
    · cases h
      exact quiet_setRead _
    · split at h
      · cases h
        exact quiet_of_slots rfl rfl fun _ hslot => hslot
      · cases h
        exact quiet_setRead _
  · next fresh origin asOf command commands reply hphase =>
    cases h
    refine ⟨?_, fun slot hslot => ?_⟩
    · unfold State.write State.setRead
      dsimp only
      split
      · split <;> rfl
      · cases command <;> rfl
    · obtain hold | ⟨hentry, rfl, hran⟩ := held_write (s := s) hslot
      · exact .inl hold
      · refine .inr ?_
        simp only [written, hr, Option.bind_some, hphase, if_neg hran, hentry, Option.mem_def]
  · cases h
    exact quiet_setRead _
  · cases h

theorem lasting_eq {now : Int} {slot kept : Slot} (h : slot.lasting now = some kept) : kept = slot := by
  obtain ⟨-, h⟩ := Option.ite_none_right_eq_some.mp h
  exact (Option.some.inj h).symm

theorem held_tick {ms : Nat} {slot : Slot} (h : slot ∈ held config (s.tick ms)) : slot ∈ held config s := by
  unfold held State.tick at h
  unfold held
  cases hstore : config.store with
  | redis =>
    simp only [hstore, Redis.expire, Option.mem_toList] at h ⊢
    obtain ⟨before, hbefore, hlasts⟩ := Option.bind_eq_some_iff.mp h
    rw [lasting_eq hlasts, hbefore]
  | memory =>
    simp only [hstore] at h ⊢
    obtain ⟨memory, hmemory, hslot⟩ := List.mem_filterMap.mp h
    obtain ⟨before, hbefore, rfl⟩ := List.mem_map.mp hmemory
    obtain ⟨kept, hkept, hlasts⟩ := Option.bind_eq_some_iff.mp hslot
    exact List.mem_filterMap.mpr ⟨before, hbefore, by rw [hkept, lasting_eq hlasts]⟩

/-- What an action leaves in the stores was there, or it has written it. -/
theorem held_next (h : next config s action = some s') :
    ∀ slot ∈ held config s', slot ∈ held config s ∨ slot.entry.value ∈ written config s action := by
  intro slot hslot
  cases action with
  | start process query authorizationPath lastEventAt =>
    obtain ⟨-, h⟩ := Option.ite_none_right_eq_some.mp h
    cases h
    exact .inl hslot
  | move id move =>
    obtain ⟨r, hr, h⟩ := Option.bind_eq_some_iff.mp h
    exact (quiet_advance hr h).held slot hslot
  | invalidate process =>
    obtain ⟨-, h⟩ := Option.ite_none_right_eq_some.mp h
    cases h
    refine .inl ?_
    unfold held State.invalidate at hslot
    unfold held
    cases hstore : config.store with
    | redis => simpa only [hstore] using hslot
    | memory =>
      simp only [hstore] at hslot ⊢
      obtain hold | hnone := filterMap_set hslot
      · exact hold
      · cases hnone
  | erase i reply =>
    obtain ⟨hstore, invalidation, -, h⟩ := erase_eq_some h
    refine .inl ?_
    cases hstage : invalidation.stage with
    | reading =>
      rw [hstage] at h
      cases h
      exact hslot
    | unlinking hasKey =>
      rw [hstage] at h
      cases h
      unfold held at hslot ⊢
      simp only [hstore] at hslot ⊢
      split at hslot
      · exact hslot
      · split at hslot
        · cases hslot
        · exact hslot
    | ended time =>
      rw [hstage] at h
      cases h
  | tick ms =>
    cases h
    exact .inl (held_tick hslot)

/-- An invalidation that has ended had ended before, or ends now; then what is
held was left by it. -/
def Ending (config : Config) (s : State) (action : Action) (s' : State) (invalidation : Invalidation)
    (time : Nat) : Prop :=
  invalidation ∈ s.invalidations ∨ time = s.time ∧
    ∀ slot ∈ held config s', ∃ rest ∈ left config s action, rest.1 = invalidation.began ∧ slot ∈ rest.2

theorem ended_invalidate {process : Nat} : ∀ invalidation ∈ (s.invalidate config process).invalidations,
    ∀ time ∈ invalidation.stage.ending,
      Ending config s (.invalidate process) (s.invalidate config process) invalidation time := by
  unfold State.invalidate
  cases hstore : config.store with
  | redis =>
    intro invalidation hi time htime
    obtain hold | hnew := List.mem_append.mp hi
    · exact .inl hold
    · cases List.mem_singleton.mp hnew
      cases htime
  | memory =>
    intro invalidation hi time htime
    obtain hold | hnew := List.mem_append.mp hi
    · exact .inl hold
    · cases List.mem_singleton.mp hnew
      cases htime
      refine .inr ⟨rfl, fun slot hslot => ?_⟩
      simp only [held, hstore, State.setMemory] at hslot
      obtain ⟨memory, hmemory, hkept⟩ := List.mem_filterMap.mp hslot
      obtain ⟨j, hj⟩ := List.mem_iff_getElem?.mp hmemory
      by_cases hprocess : process = j
      · subst hprocess
        rw [List.getElem?_set, if_pos rfl] at hj
        obtain ⟨-, hj⟩ := Option.ite_none_right_eq_some.mp hj
        cases hj
        cases hkept
      · rw [List.getElem?_set_ne hprocess] at hj
        have hother : memory ∈ s.memories.eraseIdx process :=
          List.mem_eraseIdx_iff_getElem?.mpr ⟨j, Ne.symm hprocess, hj⟩
        refine ⟨(s.time, (s.memories.eraseIdx process).filterMap (·.slot)), ?_, rfl, ?_⟩
        · simp only [left, hstore, Option.mem_def]
        · exact List.mem_filterMap.mpr ⟨memory, hother, hkept⟩

theorem ended_erase {i : Nat} {reply : Reply} (h : next config s (.erase i reply) = some s') :
    ∀ invalidation ∈ s'.invalidations, ∀ time ∈ invalidation.stage.ending,
      Ending config s (.erase i reply) s' invalidation time := by
  have hheld := held_next h
  obtain ⟨hstore, old, hold, h⟩ := erase_eq_some h
  intro invalidation hi time htime
  cases hstage : old.stage with
  | reading =>
    rw [hstage] at h
    cases h
    obtain hsame | rfl := List.mem_or_eq_of_mem_set hi
    · exact .inl hsame
    · by_cases hreply : reply = .answered
      · simp [hreply, Stage.ending] at htime
      · simp only [if_neg hreply, Stage.ending, Option.mem_def, Option.some.injEq] at htime
        refine .inr ⟨htime.symm, fun slot hslot => ⟨(old.began, held config s), ?_, rfl, hslot⟩⟩
        simp only [left, hold, Option.bind_some, hstage, if_neg hreply, Option.mem_def]
  | unlinking hasKey =>
    rw [hstage] at h
    cases h
    obtain hsame | rfl := List.mem_or_eq_of_mem_set hi
    · exact .inl hsame
    · cases htime
      refine .inr ⟨rfl, fun slot hslot => ⟨(old.began, held config s), ?_, rfl, ?_⟩⟩
      · have hleft : ¬ (hasKey = true ∧ reply ≠ .failed) := by
          rintro ⟨rfl, hreply⟩
          simp [held, hstore, hreply] at hslot
        simp only [left, hold, Option.bind_some, hstage, if_neg hleft, Option.mem_def]
      · obtain hslot | hwritten := hheld slot hslot
        · exact hslot
        · cases hwritten
  | ended time =>
    rw [hstage] at h
    cases h

theorem ended_next (h : next config s action = some s') : ∀ invalidation ∈ s'.invalidations,
    ∀ time ∈ invalidation.stage.ending, Ending config s action s' invalidation time := by
  cases action with
  | start process query authorizationPath lastEventAt =>
    obtain ⟨-, h⟩ := Option.ite_none_right_eq_some.mp h
    cases h
    exact fun _ hi _ _ => .inl hi
  | move id move =>
    obtain ⟨r, hr, h⟩ := Option.bind_eq_some_iff.mp h
    intro invalidation hi time _
    rw [(quiet_advance hr h).invalidations] at hi
    exact .inl hi
  | invalidate process =>
    obtain ⟨-, h⟩ := Option.ite_none_right_eq_some.mp h
    cases h
    exact ended_invalidate
  | erase i reply => exact ended_erase h
  | tick ms =>
    cases h
    exact fun _ hi _ _ => .inl hi

end Stores

/-- What a read has from the cache is not older than an invalidation that ended
before the read began. -/
structure Backed (s : State) (r : Read) : Prop where
  began : r.began ≤ s.time
  cached : ∀ entry ∈ r.cached, Outlives s r.began entry.value
  polled : ∀ fresh ∈ r.phase.polled, Outlives s r.began fresh
  current : Current s r

structure Sound (config : Config) (s : State) : Prop where
  ended : ∀ invalidation ∈ s.invalidations, ∀ time ∈ invalidation.stage.ending, time < s.time
  stored : ∀ slot ∈ held config s, Outlives s s.time slot.entry.value
  reads : ∀ r ∈ s.reads, Backed s r

section Step

variable {config : Config} {s s' : State} {action : Action} {bound : Nat} {fresh : Fetched} {r r' : Read}

theorem Outlives.weaken (h : Outlives s bound fresh) {earlier : Nat} (hle : earlier ≤ bound) :
    Outlives s earlier fresh :=
  fun invalidation hi time htime hlt => h invalidation hi time htime (Nat.lt_of_lt_of_le hlt hle)

theorem Outlives.next (h : Outlives s bound fresh) (hle : bound ≤ s.time)
    (hended : ∀ invalidation ∈ s'.invalidations, ∀ time ∈ invalidation.stage.ending,
      Ending config s action s' invalidation time) : Outlives s' bound fresh := by
  intro invalidation hi time htime hlt
  obtain hold | ⟨rfl, -⟩ := hended invalidation hi time htime
  · exact h invalidation hold time htime hlt
  · omega

theorem backed_phase (h : Backed s r) {phase : Phase} (hpolled : phase.polled = none)
    (hanswer : phase.answer = none) : Backed s { r with phase } :=
  ⟨h.began, h.cached, by simp [hpolled], by simp [Current, hanswer]⟩

theorem backed_started (h : Started s r) : Backed s r := by
  obtain ⟨hbegan, hcached, -, hphase⟩ := h
  refine ⟨Nat.le_of_eq hbegan, ?_, ?_, ?_⟩ <;> simp [hcached, hphase, Phase.polled, Phase.answer, Current]

theorem backed_land (h : Backed s r) {origin : Origin} {outcome : Except Thrown Fetched}
    (hcache : origin = .cache → ∀ fresh, outcome = .ok fresh → Outlives s r.began fresh) :
    Backed s (r.land config s origin outcome) := by
  cases outcome with
  | ok fresh =>
    refine ⟨h.began, h.cached, fun other hother => ?_, by simp [Read.land, Phase.answer, Current]⟩
    cases origin with
    | provider => cases hother
    | cache =>
      cases hother
      exact hcache rfl fresh rfl
  | error error =>
    refine ⟨h.began, h.cached, by simp [Read.land, Phase.polled], fun answer hanswer _ => ?_⟩
    obtain ⟨-, -, entry, hentry, hfetched⟩ := land_error_answer hanswer
    rw [hfetched]
    exact h.cached entry hentry

theorem backed_turn (h : Backed s r) (hstored : ∀ slot ∈ held config s, Outlives s s.time slot.entry.value)
    (hturn : Turn config s action r r') : Backed s r' := by
  have hget : ∀ {reply : Reply} {entry : CacheEntry Fetched}, s.get config r.process reply = some entry →
      Outlives s r.began entry.value := by
    intro reply entry hentry
    obtain ⟨slot, hslot, rfl⟩ := get_held hentry
    exact (hstored slot hslot).weaken h.began
  cases hturn with
  | looked =>
    exact ⟨h.began, fun entry hentry => hget hentry, by simp [Phase.polled], by simp [Phase.answer, Current]⟩
  | served _ _ _ _ entry hcached =>
    refine ⟨h.began, h.cached, by simp [Phase.polled], fun answer hanswer _ => ?_⟩
    cases hanswer
    exact h.cached entry hcached
  | flew => exact ⟨h.began, h.cached, by simp [Phase.polled], by simp [Phase.answer, Current]⟩
  | waited _ _ phase hphase =>
    cases phase with
    | sleeping | flying | fetching | calling | joining => exact backed_phase h rfl rfl
    | looking | deciding | unlocking | storing | done => exact hphase.elim
  | kept => exact backed_phase h rfl rfl
  | landed => exact backed_land h (by simp)
  | unlocked => exact backed_land h (by simp)
  | polled id reply _ deadline entry _ _ hentry =>
    refine backed_land h fun _ fresh hfresh => ?_
    cases hfresh
    exact hget hentry
  | wrote id reply _ fresh origin asOf command commands hphase =>
    refine ⟨h.began, h.cached, fun other hother => h.polled other ?_, by simp [Phase.answer, Current]⟩
    rw [hphase]
    cases origin with
    | provider => cases hother
    | cache => exact hother
  | finished id _ fresh origin asOf hphase =>
    refine ⟨h.began, h.cached, by simp [Phase.polled], fun answer hanswer hcache => ?_⟩
    cases hanswer
    refine h.polled fresh ?_
    rw [hphase, show origin = .cache from hcache]
    rfl

theorem Backed.next (h : Backed s r) (hended : ∀ invalidation ∈ s'.invalidations,
    ∀ time ∈ invalidation.stage.ending, Ending config s action s' invalidation time)
    (htime : s.time ≤ s'.time) : Backed s' r :=
  ⟨Nat.le_trans h.began htime, fun entry hentry => (h.cached entry hentry).next h.began hended,
    fun fresh hfresh => (h.polled fresh hfresh).next h.began hended,
    fun answer hanswer hcache => (h.current answer hanswer hcache).next h.began hended⟩

theorem sound_step (h : Sound config s) (hc : Effective config s action)
    (hs : step config s action = some s') : Sound config s' := by
  obtain ⟨t, hnext, rfl⟩ := step_eq_some_iff.mp hs
  have hended := ended_next hnext
  have hheld := held_next hnext
  refine ⟨fun invalidation hi time htime => ?_, fun slot hslot invalidation hi time htime _ => ?_,
    fun r' hr' => ?_⟩
  · obtain hold | ⟨rfl, -⟩ := hended invalidation hi time htime
    · exact Nat.lt_succ_of_lt (h.ended invalidation hold time htime)
    · exact Nat.lt_succ_self s.time
  · obtain hold | ⟨-, hrest⟩ := hended invalidation hi time htime
    · have hlt := h.ended invalidation hold time htime
      obtain hkept | hwritten := hheld slot hslot
      · exact h.stored slot hkept invalidation hold time htime hlt
      · exact hc.1 _ hwritten invalidation hold time htime hlt
    · obtain ⟨rest, hleft, hbegan, hin⟩ := hrest slot hslot
      rw [← hbegan]
      exact hc.2 rest hleft slot hin
  · have hbacked : Backed s r' := by
      obtain hold | hstarted | ⟨r, hr, hturn⟩ := comes_next hnext r' hr'
      · exact h.reads r' hold
      · exact backed_started hstarted
      · exact backed_turn (h.reads r hr) h.stored hturn
    exact hbacked.next hended (Nat.le_succ s.time)

end Step

theorem sound_opened (config : Config) (time : Nat) (now : Int) (redis : Redis) (slots : List (Option Slot)) :
    Sound config (.opened time now redis slots) :=
  ⟨fun _ hi => absurd hi List.not_mem_nil, fun _ _ _ hi => absurd hi List.not_mem_nil,
    fun _ hr => absurd hr List.not_mem_nil⟩

/-- In a run in which no old value is written back after an invalidation, and no
invalidation leaves one, the cache serves nothing older than an invalidation
that ended before the read began. -/
theorem cached_read_current (config : Config) (time : Nat) (now : Int) (redis : Redis)
    (slots : List (Option Slot)) (actions : List Action) (s : State)
    (hs : after config (.opened time now redis slots) actions = some s)
    (h : Meets config (.opened time now redis slots) (Effective config) actions) :
    ∀ r ∈ s.reads, Current s r :=
  have hsound : Sound config s :=
    h.induction hs (sound_opened config time now redis slots) fun _ _ _ => sound_step
  fun r hr => (hsound.reads r hr).current

/-- The balance is cached, invalidated and cached again before it is served. -/
def refreshedRun : List Action :=
  ([.start 0 cachedQuery false none] : List Action) ++ fetches 0 500 0 ++ writes 0 ++
    ([.invalidate 0, .erase 0 .answered, .erase 0 .answered, .start 1 cachedQuery false none] :
      List Action) ++
    fetches 1 400 0 ++ writes 1 ++
    ([.start 0 cachedQuery false none, .move 2 (.lookUp .answered), .move 2 (.decide 0 none)] :
      List Action)

theorem cached_read_current_refreshed : (after sampleConfig twoProcesses refreshedRun).isSome ∧
    ∀ s, after sampleConfig twoProcesses refreshedRun = some s → ∀ r ∈ s.reads, Current s r :=
  ⟨by decide, fun s hs =>
    cached_read_current sampleConfig 0 0 {} [none, none] refreshedRun s hs (by decide)⟩

/-- The invalidation runs while the provider call is under way; the read writes its
snapshot afterwards. -/
def writtenBackRun : List Action :=
  ([.start 0 cachedQuery false none] : List Action) ++ (fetches 0 500 0).take 4 ++
    ([.invalidate 0, .erase 0 .answered, .erase 0 .answered] : List Action) ++
    (fetches 0 500 0).drop 4 ++ writes 0 ++
    ([.start 0 cachedQuery false none, .move 1 (.lookUp .answered), .move 1 (.decide 0 none)] :
      List Action)

theorem cached_read_stale : ¬ ∀ (config : Config) (time : Nat) (now : Int) (redis : Redis)
    (slots : List (Option Slot)) (actions : List Action) (s : State),
    after config (.opened time now redis slots) actions = some s → ∀ r ∈ s.reads, Current s r := by
  intro h
  have hstale : ¬ ∀ s ∈ after sampleConfig twoProcesses writtenBackRun, ∀ r ∈ s.reads, Current s r := by
    decide
  exact hstale fun s hs => h sampleConfig 0 0 {} [none, none] writtenBackRun s hs

end BaasConnector.Balance.Invalidations
