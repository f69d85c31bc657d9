import BaasConnector.Balance.Turns

namespace BaasConnector.Balance.Freshness

open BaasConnector.Balance.BypassRules BaasConnector.Balance.Service BaasConnector.Balance.Reads
open BaasConnector.Balance.Turns BaasConnector.Taxonomy.Errors

/-- An answer that tells a bypass has a snapshot of a call that had not ended when
the read began. -/
def Fresh (r : Read) : Prop :=
  ∀ answer ∈ r.phase.answer, answer.result.bypass.isSome → r.began ≤ answer.fetched.ended

instance (r : Read) : Decidable (Fresh r) :=
  inferInstanceAs (Decidable (∀ answer ∈ r.phase.answer,
    answer.result.bypass.isSome → r.began ≤ answer.fetched.ended))

def Action.polled : Action → Option (Nat × Reply)
  | .move id (.poll reply) => some (id, reply)
  | _ => none

/-- A bypassing read that waits for the lock of Redis finds in the cache no
snapshot of a call that had ended before it began. -/
def Unserved (config : Config) (s : State) (action : Action) : Prop :=
  config.store = .redis → ∀ poll ∈ Action.polled action, ∀ r ∈ s.reads[poll.1]?, r.bypass.isSome →
    ∀ entry ∈ s.get config r.process poll.2, r.began ≤ entry.value.ended

instance (config : Config) (s : State) (action : Action) : Decidable (Unserved config s action) :=
  inferInstanceAs (Decidable (_ → ∀ poll ∈ Action.polled action, ∀ r ∈ s.reads[poll.1]?, _ →
    ∀ entry ∈ s.get config r.process poll.2, r.began ≤ entry.value.ended))

structure Honest (config : Config) (time : Nat) (r : Read) : Prop where
  began : r.began ≤ time
  sleeps : ∀ deadline, r.phase = .sleeping deadline → config.store = .redis
  carried : r.bypass.isSome → ∀ fresh ∈ r.phase.carried, r.began ≤ fresh.ended
  answered : Fresh r

section Step

variable {config : Config} {s s' : State} {action : Action} {time : Nat} {r r' : Read}

theorem Honest.mono (h : Honest config time r) {later : Nat} (hle : time ≤ later) : Honest config later r :=
  ⟨Nat.le_trans h.began hle, h.sleeps, h.carried, h.answered⟩

theorem honest_started (h : Started s r) : Honest config s.time r := by
  obtain ⟨hbegan, -, -, hphase⟩ := h
  refine ⟨Nat.le_of_eq hbegan, ?_, ?_, ?_⟩ <;> simp [hphase, Phase.carried, Phase.answer, Fresh]

theorem honest_waits (hbegan : r.began ≤ time) {phase : Phase} (hphase : Waits config phase) :
    Honest config time { r with phase } := by
  cases phase with
  | sleeping deadline =>
      exact ⟨hbegan, fun _ _ => hphase, by simp [Phase.carried], by simp [Phase.answer, Fresh]⟩
  | flying | fetching | calling | joining =>
    exact ⟨hbegan, by simp, by simp [Phase.carried], by simp [Phase.answer, Fresh]⟩
  | looking | deciding | unlocking | storing | done => exact hphase.elim

theorem honest_land (hbegan : r.began ≤ time) {origin : Origin} {outcome : Except Thrown Fetched}
    (hfresh : r.bypass.isSome → ∀ fresh, outcome = .ok fresh → r.began ≤ fresh.ended) :
    Honest config time (r.land config s origin outcome) := by
  cases outcome with
  | ok fresh =>
    refine ⟨hbegan, by simp [Read.land], fun hbypass other hother => ?_,
      by simp [Read.land, Phase.answer, Fresh]⟩
    cases hother
    exact hfresh hbypass fresh rfl
  | error error =>
    refine ⟨hbegan, by simp [Read.land], by simp [Read.land, Phase.carried], fun answer hanswer hbypass => ?_⟩
    rw [(land_error_answer hanswer).1] at hbypass
    exact absurd hbypass (by simp)

theorem honest_turn (h : Honest config s.time r) (hturn : Turn config s action r r')
    (hc : Unserved config s action) : Honest config s.time r' := by
  have hown : ∀ {outcome : Except Thrown Fetched}, EndsAt s.time outcome → r.bypass.isSome →
      ∀ fresh, outcome = .ok fresh → r.began ≤ fresh.ended := by
    intro outcome hends _ fresh hfresh
    rw [hends fresh hfresh]
    exact h.began
  cases hturn with
  | looked => exact ⟨h.began, by simp, by simp [Phase.carried], by simp [Phase.answer, Fresh]⟩
  | served => exact ⟨h.began, by simp, by simp [Phase.carried], by simp [Phase.answer, Fresh, fromCache]⟩
  | flew => exact ⟨h.began, by simp, by simp [Phase.carried], by simp [Phase.answer, Fresh]⟩
  | waited _ _ phase hphase => exact honest_waits h.began hphase
  | kept _ _ outcome hends =>
    refine ⟨h.began, by simp, fun hbypass fresh hfresh => ?_, by simp [Phase.answer, Fresh]⟩
    cases outcome with
    | error error => cases hfresh
    | ok own =>
      cases hfresh
      exact hown hends hbypass fresh rfl
  | landed _ _ outcome hends => exact honest_land h.began (hown hends)
  | unlocked id reply _ outcome hphase =>
    refine honest_land h.began fun hbypass fresh hfresh => h.carried hbypass fresh ?_
    rw [hphase, hfresh]
    rfl
  | polled id reply _ deadline entry hr hphase hget =>
    refine honest_land h.began fun hbypass fresh hfresh => ?_
    cases hfresh
    exact hc (h.sleeps deadline hphase) (id, reply) rfl r hr hbypass entry hget
  | wrote id reply _ fresh origin asOf command commands hphase =>
    refine ⟨h.began, by simp, fun hbypass other hother => ?_, by simp [Phase.answer, Fresh]⟩
    cases hother
    exact h.carried hbypass fresh (by rw [hphase]; rfl)
  | finished id _ fresh origin asOf hphase =>
    refine ⟨h.began, by simp, by simp [Phase.carried], fun answer hanswer hbypass => ?_⟩
    cases hanswer
    exact h.carried hbypass fresh (by rw [hphase]; rfl)

theorem honest_step (h : ∀ r ∈ s.reads, Honest config s.time r) (hc : Unserved config s action)
    (hs : step config s action = some s') : ∀ r ∈ s'.reads, Honest config s'.time r := by
  obtain ⟨htime, hreads⟩ := comes_step hs
  intro r' hr'
  have hle : s.time ≤ s'.time := by omega
  obtain hold | hstarted | ⟨r, hr, hturn⟩ := hreads r' hr'
  · exact (h r' hold).mono hle
  · exact (honest_started hstarted).mono hle
  · exact (honest_turn (h r hr) hturn hc).mono hle

end Step

/-- Over both stores, any processes and any cached value: a bypassing read is
fresh, unless on Redis it lost the lock and polled an older value. -/
theorem bypassing_read_fresh (config : Config) (time : Nat) (now : Int) (redis : Redis)
    (slots : List (Option Slot)) (actions : List Action) (s : State)
    (hs : after config (.opened time now redis slots) actions = some s)
    (h : Meets config (.opened time now redis slots) (Unserved config) actions) :
    ∀ r ∈ s.reads, Fresh r := by
  have hhonest : ∀ r ∈ s.reads, Honest config s.time r :=
    h.induction hs (fun r hr => absurd hr (List.not_mem_nil)) fun _ _ _ => honest_step
  exact fun r hr => (hhonest r hr).answered

section Exact

variable {config : Config} {id : Nat}

theorem getElem_setRead {s : State} {r : Read} (hr : s.reads[id]? = some r) (r' : Read) :
    (s.setRead id r').reads[id]? = some r' :=
  List.getElem?_set_self (List.getElem?_eq_some_iff.mp hr).1

/-- A read that stores its snapshot can always finish. -/
theorem finishes {s : State} {r : Read} {fresh : Fetched} {origin : Origin} {asOf : Int}
    {commands : List Command} (hr : s.reads[id]? = some r)
    (hphase : r.phase = .storing fresh origin asOf commands) :
    ∃ actions t r' answer, after config s actions = some t ∧ r' ∈ t.reads ∧ r'.began = r.began ∧
      answer ∈ r'.phase.answer ∧ answer.result.bypass = r.bypass ∧ answer.fetched = fresh := by
  induction commands generalizing s r with
  | nil =>
    have hmove : step config s (.move id .finish) = some { s.setRead id { r with
        phase := .done (.ok ⟨fromFlight config s.now fresh.snapshot asOf r.bypass, fresh, origin⟩) } with
        time := s.time + 1 } := by
      have hadvance : advance config s id r r.phase .finish = some (s.setRead id { r with
          phase := .done (.ok ⟨fromFlight config s.now fresh.snapshot asOf r.bypass, fresh, origin⟩) }) := by
        rw [hphase]
        rfl
      simp [step, next, hr, hadvance]
    have hmem := fun r' => List.mem_of_getElem? (getElem_setRead hr r')
    exact ⟨[.move id .finish], _, _, _, hmove, hmem _, rfl, rfl, rfl, rfl⟩
  | cons command commands ih =>
    have hmove : step config s (.move id (.store .failed)) = some
        { (s.write config r.process .failed ⟨fresh, asOf⟩ command).setRead id
          { r with phase := .storing fresh origin asOf commands } with time := s.time + 1 } := by
      have hadvance : advance config s id r r.phase (.store .failed) = some
          ((s.write config r.process .failed ⟨fresh, asOf⟩ command).setRead id
            { r with phase := .storing fresh origin asOf commands }) := by
        rw [hphase]
        rfl
      simp [step, next, hr, hadvance]
    have hwritten : (s.write config r.process .failed ⟨fresh, asOf⟩ command).reads[id]? = some r := by
      rw [write_reads, hr]
    obtain ⟨actions, t, r', answer, ht, hrest⟩ := ih
      (s := { (s.write config r.process .failed ⟨fresh, asOf⟩ command).setRead id
          { r with phase := .storing fresh origin asOf commands } with time := s.time + 1 })
      (getElem_setRead hwritten _) rfl
    exact ⟨.move id (.store .failed) :: actions, t, r', answer, by rw [after_cons hmove, ht], hrest⟩

theorem polled_eq {action : Action} {id : Nat} {reply : Reply} (h : (id, reply) ∈ Action.polled action) :
    action = .move id (.poll reply) := by
  unfold Action.polled at h
  split at h
  · cases h
    rfl
  · cases h

theorem sleeping_of_poll {s s' : State} {r : Read} {reply : Reply}
    (h : advance config s id r r.phase (.poll reply) = some s') :
    ∃ deadline, r.phase = .sleeping deadline := by
  have hnone : advance config s id r r.phase (.poll reply) ≠ none := by
    rw [h]
    exact Option.some_ne_none s'
  cases hphase : r.phase with
  | sleeping deadline => exact ⟨deadline, rfl⟩
  | storing fresh origin asOf commands =>
    rw [hphase] at hnone
    cases commands with
    | nil => exact absurd rfl hnone
    | cons command commands => exact absurd rfl hnone
  | looking | deciding | flying | fetching | calling | unlocking | joining | done =>
    rw [hphase] at hnone
    exact absurd rfl hnone

theorem advance_polled {s : State} {r : Read} {deadline : Int} {reply : Reply} {entry : CacheEntry Fetched}
    (hget : s.get config r.process reply = some entry) :
    advance config s id r (.sleeping deadline) (.poll reply) =
      some (s.setRead id (r.land config s .cache (.ok entry.value))) := by
  delta advance
  dsimp only
  rw [hget]

/-- A step that breaks the condition is the start of a stale answer. -/
theorem stale_after_served {s s' : State} {action : Action} (hs : step config s action = some s')
    (h : ¬ Unserved config s action) :
    ∃ actions t, after config s' actions = some t ∧ ∃ r ∈ t.reads, ¬ Fresh r := by
  simp only [Unserved, not_forall] at h
  obtain ⟨hstore, ⟨id, reply⟩, hpoll, r, hr, hbypass, entry, hget, hold⟩ := h
  obtain rfl := polled_eq hpoll
  obtain ⟨t, hnext, rfl⟩ := step_eq_some_iff.mp hs
  simp only [next, Option.mem_def.mp hr, Option.bind_some] at hnext
  obtain ⟨deadline, hphase⟩ := sleeping_of_poll hnext
  rw [hphase, advance_polled hget, Option.some.injEq] at hnext
  subst hnext
  obtain ⟨actions, t, r', answer, ht, hr', hbegan, hanswer, hreason, hfetched⟩ := finishes
    (s := { s.setRead id (r.land config s .cache (.ok entry.value)) with time := s.time + 1 })
    (getElem_setRead hr _) rfl
  refine ⟨actions, t, ht, r', hr', fun hfresh => hold ?_⟩
  have hle := hfresh answer hanswer (by rw [hreason]; exact hbypass)
  rwa [hbegan, hfetched] at hle

end Exact

section Runs

def sampleConfig : Config := ⟨.redis, "acc_1", true, 30, 60⟩

def twoProcesses : State := .opened 0 0 {} [none, none]

def cachedQuery : BalanceQuery := ⟨.cached, .fail⟩

def strongQuery : BalanceQuery := ⟨.strong, .fail⟩

/-- The read with this number gets the lock and fetches the balance. -/
def fetches (id : Nat) (available asOf : Int) : List Action :=
  [.lookUp .answered, .decide 0 none, .enter .answered, .call,
    .answer (.ok ⟨available, none, none, some asOf⟩), .unlock .answered].map (.move id)

def writes (id : Nat) : List Action :=
  [.store .answered, .store .answered, .store .answered, .finish].map (.move id)

def loses (id : Nat) : List Action :=
  [.lookUp .answered, .decide 0 none, .enter .answered].map (.move id)

/-- The second read loses the lock to the first one and polls until it has written. -/
def pollingRun : List Action :=
  ([.start 0 strongQuery false none, .start 1 strongQuery false none] : List Action) ++
    (fetches 0 500 0).take 3 ++ loses 1 ++ ([.move 1 (.poll .answered)] : List Action) ++
    (fetches 0 500 0).drop 3 ++ writes 0 ++ ([.tick 25, .move 1 (.poll .answered)] : List Action) ++
    writes 1

theorem bypassing_read_fresh_polling : (after sampleConfig twoProcesses pollingRun).isSome ∧
    ∀ s, after sampleConfig twoProcesses pollingRun = some s → ∀ r ∈ s.reads, Fresh r :=
  ⟨by decide, fun s hs =>
    bypassing_read_fresh sampleConfig 0 0 {} [none, none] pollingRun s hs (by decide)⟩

/-- The balance of a past read is in the cache when two strong reads come. -/
def stalePollRun : List Action :=
  ([.start 0 cachedQuery false none] : List Action) ++ fetches 0 500 0 ++ writes 0 ++
    ([.tick 1000] : List Action) ++
    ([.start 0 strongQuery false none, .start 1 strongQuery false none] : List Action) ++
    loses 1 ++ loses 2 ++ ([.tick 25, .move 2 (.poll .answered)] : List Action) ++ writes 2

theorem bypassing_read_stale : ¬ ∀ (config : Config) (time : Nat) (now : Int) (redis : Redis)
    (slots : List (Option Slot)) (actions : List Action) (s : State),
    after config (.opened time now redis slots) actions = some s → ∀ r ∈ s.reads, Fresh r := by
  intro h
  have hstale : ¬ ∀ s ∈ after sampleConfig twoProcesses stalePollRun, ∀ r ∈ s.reads, Fresh r := by
    decide
  exact hstale fun s hs => h sampleConfig 0 0 {} [none, none] stalePollRun s hs

end Runs

end BaasConnector.Balance.Freshness
