import Mathlib
import BaasConnector.Worker.LadderJobs

namespace BaasConnector.Worker.LadderPacing

open BaasConnector.Lib.Keyed BaasConnector.Connector.Records BaasConnector.Worker.Ladder
open BaasConnector.Worker.LadderJobs

/-- No sweep finds an operation with an unknown outcome while the queue still
has a rung of it to hand out, and no rung of such an operation throws. -/
def Orderly (s : State) : Action → Prop
  | .sweep => ∀ row ∈ s.due, row.status = .UNKNOWN → ∀ rung readyAt,
      s.queue.get (row.id, rung) ≠ some (.waiting readyAt)
  | .run id _ (.failed _) => ∀ row, s.operations.get id = some row → row.status ≠ .UNKNOWN
  | _ => True

def OrderlyAll : State → List Action → Prop
  | _, [] => True
  | s, action :: actions => Orderly s action ∧ ∀ s', s.next action = some s' → OrderlyAll s' actions

section Pacing

/-- The rungs that have asked the provider, each with its time. -/
def ranOf (events : List Event) : List (Nat × Int) :=
  events.filterMap fun
    | .ran _ rung ranAt => some (rung, ranAt)
    | _ => none

/-- No sweep enqueues an operation before the time that a rung has set for the next. -/
def Respected (events : List Event) : Prop :=
  events.Pairwise fun later earlier =>
    ∀ id sweptAt rung dueAt, later = .swept id sweptAt → earlier = .scheduled id rung dueAt → dueAt ≤ sweptAt

/-- The next rung comes one above the last, and not before its time. -/
def Follows (later earlier : Nat × Int) : Prop :=
  later.1 = earlier.1 + 1 ∧ earlier.2 + delayMs later.1 ≤ later.2

structure Paced (events : List Event) : Prop where
  respected : Respected events
  chained : (ranOf events).IsChain Follows
  bounded : ∀ query ∈ ranOf events, query.1 < unknownOutcomeLadderSeconds.length

/-- How long after the first rung the rungs above it are reached, at the earliest. -/
def reachedAfterMs (count : Nat) : Int := (((List.range count).map fun k => delayMs (k + 1))).sum

/-- The number of queries that the schedule allows for in a time. -/
def allowance (elapsedMs : Int) : Nat :=
  (List.range unknownOutcomeLadderSeconds.length).countP fun count => reachedAfterMs count ≤ elapsedMs

theorem allowance_succ {count : Nat} {elapsedMs : Int} (hcount : count < unknownOutcomeLadderSeconds.length)
    (h : reachedAfterMs count ≤ elapsedMs) : count + 1 ≤ allowance elapsedMs := by
  have hmono : ∀ n < 7, ∀ k < n + 1, reachedAfterMs k ≤ reachedAfterMs n := by decide
  have hsub : (List.range (count + 1)).Sublist (List.range unknownOutcomeLadderSeconds.length) :=
    List.range_sublist.mpr hcount
  have hall : (List.range (count + 1)).countP (fun k => decide (reachedAfterMs k ≤ elapsedMs)) = count +
    1 := by
    rw [List.countP_eq_length.mpr, List.length_range]
    intro k hk
    have hle := hmono count hcount k (List.mem_range.mp hk)
    exact decide_eq_true (hle.trans h)
  rw [← hall]
  exact hsub.countP_le

variable {queries : List (Nat × Int)}

/-- Where a chain of rungs stands above its first one. -/
theorem chain_reached {query first : Nat × Int} (hchain : (query :: queries).IsChain Follows)
    (hbound : ∀ q ∈ query :: queries, q.1 < unknownOutcomeLadderSeconds.length)
    (hfirst : (query :: queries).getLast? = some first) :
    query.1 = first.1 + queries.length ∧ first.2 + reachedAfterMs queries.length ≤ query.2 := by
  induction queries generalizing query with
  | nil =>
    obtain rfl : query = first := by simpa using hfirst
    simp [reachedAfterMs]
  | cons earlier queries ih =>
    rw [List.isChain_cons_cons] at hchain
    obtain ⟨⟨hrung, htime⟩, hrest⟩ := hchain
    rw [List.getLast?_cons_cons] at hfirst
    obtain ⟨hnext, hreached⟩ := ih hrest (fun q hq => hbound q (List.mem_cons_of_mem _ hq)) hfirst
    have hlt := hbound query List.mem_cons_self
    have hmono : ∀ j < 7, ∀ i < j + 1, delayMs i ≤ delayMs j ∨ i = 0 := by decide
    have hdelay := hmono query.1 hlt (queries.length + 1) (by omega)
    have hsum : reachedAfterMs (queries.length + 1) =
        reachedAfterMs queries.length + delayMs (queries.length + 1) := by
      simp [reachedAfterMs, List.range_succ]
    rw [List.length_cons, hsum]
    refine ⟨by omega, ?_⟩
    obtain hle | hzero := hdelay
    · omega
    · omega

theorem chain_allowed {first : Nat × Int} (hchain : queries.IsChain Follows)
    (hbound : ∀ q ∈ queries, q.1 < unknownOutcomeLadderSeconds.length)
    (hfirst : queries.getLast? = some first) (deadline : Int) :
    (queries.filter fun query => query.2 ≤ deadline).length ≤ allowance (deadline - first.2) := by
  induction queries with
  | nil => cases hfirst
  | cons query queries ih =>
    by_cases hquery : query.2 ≤ deadline
    · obtain ⟨hrung, hreached⟩ := chain_reached hchain hbound hfirst
      have hlt := hbound query List.mem_cons_self
      have hall := @allowance_succ queries.length (deadline - first.2) (by omega) (by omega)
      have hlen := List.length_filter_le (fun query : Nat × Int => decide (query.2 ≤ deadline)) queries
      rw [List.filter_cons_of_pos (by simpa using hquery), List.length_cons]
      omega
    · rw [List.filter_cons_of_neg (by simpa using hquery)]
      cases queries with
      | nil => exact Nat.zero_le _
      | cons earlier queries =>
        rw [List.getLast?_cons_cons] at hfirst
        exact ih hchain.tail (fun q hq => hbound q (List.mem_cons_of_mem _ hq)) hfirst

end Pacing

section Invariant

/-- Where an operation stands in a run of the ladder that is orderly. -/
inductive Good : View → Prop
  | absent : Good ⟨none, fun _ => none, []⟩
  | fresh (row : OperationRow) (jobs : Nat → Option JobState) (events : List Event)
      (hunknown : row.status = .UNKNOWN)
      (hwaiting : ∀ k state, jobs k = some state →
        (∃ readyAt, state = .waiting readyAt) ∧ k < unknownOutcomeLadderSeconds.length)
      (hone : ∀ k k', (jobs k).isSome → (jobs k').isSome → k = k')
      (hevents : ∀ event ∈ events, ∃ id sweptAt, event = .swept id sweptAt) : Good ⟨some row, jobs, events⟩
  | climbing (row : OperationRow) (jobs : Nat → Option JobState) (events : List Event) (rung : Nat)
      (ranAt readyAt : Int) (earlier : List (Nat × Int)) (hunknown : row.status = .UNKNOWN)
      (hpaced : Paced events) (hran : ranOf events = (rung, ranAt) :: earlier)
      (hlt : rung + 1 < unknownOutcomeLadderSeconds.length)
      (hnext : jobs (rung + 1) = some (.waiting readyAt)) (hready : ranAt + delayMs (rung + 1) ≤ readyAt)
      (hothers : ∀ k, k ≠ rung + 1 → ∀ state, jobs k = some state → state = .finished ∧ k ≤ rung) :
      Good ⟨some row, jobs, events⟩
  | done (row : OperationRow) (jobs : Nat → Option JobState) (events : List Event)
      (hknown : row.status ≠ .UNKNOWN) (hpaced : Paced events) : Good ⟨some row, jobs, events⟩

variable {events : List Event} {id : String} {rung : Nat} {ranAt dueAt sweptAt : Int}

theorem ranOf_swept (h : ∀ event ∈ events, ∃ id sweptAt, event = .swept id sweptAt) : ranOf events = [] := by
  apply List.filterMap_eq_nil_iff.mpr
  intro event hevent
  obtain ⟨id, sweptAt, rfl⟩ := h event hevent
  rfl

theorem paced_swept (h : ∀ event ∈ events, ∃ id sweptAt, event = .swept id sweptAt) : Paced events := by
  have hran := ranOf_swept h
  refine ⟨?_, by rw [hran]; exact .nil, by simp [hran]⟩
  refine List.pairwise_of_forall_mem_list fun later _ earlier hearlier id sweptAt rung dueAt _ he => ?_
  obtain ⟨id', sweptAt', hs⟩ := h earlier hearlier
  rw [hs] at he
  cases he

theorem Good.paced {v : View} (h : Good v) : Paced v.events := by
  cases h with
  | absent => exact paced_swept (by simp)
  | fresh _ _ _ _ _ _ hevents => exact paced_swept hevents
  | climbing _ _ _ _ _ _ _ _ hpaced => exact hpaced
  | done _ _ _ _ hpaced => exact hpaced

theorem paced_ran (h : Paced events) (hbound : rung < unknownOutcomeLadderSeconds.length)
    (hfollows : ∀ earlier rest, ranOf events = earlier :: rest → Follows (rung, ranAt) earlier) :
    Paced (.ran id rung ranAt :: events) := by
  have hran : ranOf (.ran id rung ranAt :: events) = (rung, ranAt) :: ranOf events := rfl
  refine ⟨List.pairwise_cons.mpr ⟨fun _ _ _ _ _ _ he => (by cases he), h.respected⟩, ?_, ?_⟩
  · rw [hran]
    cases hearlier : ranOf events with
    | nil => exact .singleton _
    | cons earlier rest =>
      refine List.isChain_cons_cons.mpr ⟨hfollows earlier rest hearlier, ?_⟩
      rw [← hearlier]
      exact h.chained
  · rw [hran]
    exact List.forall_mem_cons.mpr ⟨hbound, h.bounded⟩

theorem paced_scheduled (h : Paced events) : Paced (.scheduled id rung dueAt :: events) := by
  exact ⟨List.pairwise_cons.mpr ⟨fun _ _ _ _ _ _ he => (by cases he), h.respected⟩, h.chained, h.bounded⟩

variable {s s' : State} {row : OperationRow} {other : String}

theorem view_set_ne (h : other ≠ id) (state : JobState) :
    ({ s with queue := s.queue.set (id, rung) state } : State).view other = s.view other := by
  have hkey : ∀ k, (other, k) ≠ (id, rung) := fun k he => h (Prod.mk.inj he).1
  simp [State.view, Table.get_set, hkey]

theorem run_split {answer : Answer} (h : s.run id rung answer = some s') :
    ∃ readyAt, s.queue.get (id, rung) = some (.waiting readyAt) ∧ readyAt ≤ s.now ∧
      s' = (s.operations.get id).elim { s with queue := s.queue.set (id, rung) .finished } fun row =>
        (({ s with queue := s.queue.set (id, rung) .finished } : State).log row (.ran id rung s.now)).step row
          rung answer := by
  unfold State.run at h
  cases hget : s.queue.get (id, rung) with
  | none => simp [hget] at h
  | some state =>
    cases state with
    | finished => simp [hget] at h
    | waiting readyAt =>
      simp only [hget] at h
      by_cases hready : readyAt ≤ s.now
      · rw [if_pos hready] at h
        refine ⟨readyAt, rfl, hready, ?_⟩
        cases hrow : s.operations.get id with
        | none =>
          rw [hrow] at h
          exact (Option.some.inj h).symm
        | some row =>
          rw [hrow] at h
          exact (Option.some.inj h).symm
      · rw [if_neg hready] at h
        cases h

theorem run_view_ne {answer : Answer} (h : s.run id rung answer = some s') (hne : other ≠ id) :
    s'.view other = s.view other := by
  obtain ⟨readyAt, -, -, rfl⟩ := run_split h
  cases hrow : s.operations.get id with
  | none => exact view_set_ne hne .finished
  | some row =>
    have hid : row.id = id := Rows.key_of_get hrow
    rw [Option.elim_some, step_view_ne answer (hid ▸ hne), view_log_ne _ hne]
    exact view_set_ne hne .finished

/-- A rung handed out while the outcome is unknown keeps the order. -/
theorem run_good {answer : Answer} (h : s.run id rung answer = some s')
    (hrow : s.operations.get id = some row)
    (hunknown : row.status = .UNKNOWN) (hanswer : ∀ counted, answer ≠ .failed counted)
    (hpaced : Paced (.ran id rung s.now :: eventsOf id s.trace))
    (hbelow : ∀ k, k ≠ rung → ∀ state, s.queue.get (id, k) = some state → state = .finished ∧ k ≤ rung) :
    Good (s'.view id) := by
  obtain ⟨readyAt, -, -, rfl⟩ := run_split h
  rw [hrow, Option.elim_some]
  have hid : row.id = id := Rows.key_of_get hrow
  subst hid
  generalize hlogged : (({ s with queue := s.queue.set (row.id, rung) .finished } : State).log row
    (.ran row.id rung s.now)) = logged
  have hevents : eventsOf row.id logged.trace = .ran row.id rung s.now :: eventsOf row.id s.trace := by
    rw [← hlogged, log_events, if_pos ⟨hunknown, rfl⟩]
  have hnow : logged.now = s.now := by rw [← hlogged, log_now]
  have hqueue : ∀ k, logged.queue.get (row.id, k) =
      if k = rung then some .finished else s.queue.get (row.id, k) := by
    intro k
    rw [← hlogged, log_queue, Table.get_set]
    simp
  obtain ⟨row', hknown, hview⟩ | ⟨row', hunknown', hlt, hview⟩ :=
    @step_view_self logged row rung answer hunknown hanswer
  · rw [hview]
    refine .done row' _ _ hknown ?_
    change Paced (eventsOf row.id logged.trace)
    rw [hevents]
    exact hpaced
  · rw [hview, hevents]
    refine .climbing row' _ _ rung s.now (s.now + delayMs (rung + 1))
      (ranOf (eventsOf row.id s.trace)) hunknown'
      (paced_scheduled hpaced) rfl hlt ?_ (Int.le_refl _) fun k hk state hstate => ?_
    · have hfree : s.queue.get (row.id, rung + 1) = none := by
        cases hget : s.queue.get (row.id, rung + 1) with
        | none => rfl
        | some state =>
          have hle := (hbelow (rung + 1) (by omega) state hget).2
          omega
      rw [enqueue_get, if_pos rfl, hqueue, if_neg (by omega), hfree, Option.getD_none, hnow]
    · have hkey : (row.id, k) ≠ (row.id, rung + 1) := fun he => hk (Prod.mk.inj he).2
      rw [enqueue_get, if_neg hkey, hqueue] at hstate
      by_cases hkr : k = rung
      · rw [if_pos hkr, Option.some.injEq] at hstate
        exact ⟨hstate.symm, by omega⟩
      · rw [if_neg hkr] at hstate
        exact hbelow k hkr state hstate

theorem findStuck_mem {repository : Repository} {limit : Nat} {rows : List OperationRow}
    (h : row ∈ findStuck repository limit rows) : row ∈ rows := by
  have hsorted := List.mem_of_mem_take h
  rw [List.mem_insertionSort] at hsorted
  exact (List.mem_filter.mp hsorted).1

theorem due_stored (h : row ∈ s.due) : s.operations.get row.id = some row := by
  obtain ⟨k, hk⟩ := Table.mem_values.mp (findStuck_mem (List.mem_filter.mp h).1)
  have hid : row.id = k := s.operations.keyed k row hk
  rw [hid]
  exact hk

theorem sweep_skips (h : ∀ row ∈ s.due, row.id ≠ id) : (State.enqueueStuck s.due s).view id = s.view id := by
  obtain ⟨hrow, hjobs, events, -, hnone, htrace⟩ := @enqueueStuck_view s id s.due
  refine View.ext hrow (funext fun k => ?_) ?_
  · rw [hjobs k, if_neg fun ⟨row, hmem, hid, _⟩ => h row hmem hid]
    cases hget : s.queue.get (id, k) <;> simp [State.view, hget]
  · rw [htrace, hnone fun row hmem hid => absurd hid (h row hmem)]
    rfl

theorem sweep_finds (hmem : row ∈ s.due) :
    (∀ k, ((State.enqueueStuck s.due s).view row.id).jobs k = (s.queue.get (row.id, k)).orElse fun _ =>
      if sweepRung row = k then some (.waiting s.now) else none) ∧
    ∃ events, (∀ event ∈ events, event = .swept row.id s.now) ∧ (row.status ≠ .UNKNOWN → events = []) ∧
      ((State.enqueueStuck s.due s).view row.id).events = events ++ eventsOf row.id s.trace := by
  obtain ⟨-, hjobs, events, hevents, hnone, htrace⟩ := @enqueueStuck_view s row.id s.due
  have hsame : ∀ row' ∈ s.due, row'.id = row.id → row' = row := by
    intro row' hmem' hid
    have hstored := due_stored hmem'
    rw [hid, due_stored hmem] at hstored
    exact (Option.some.inj hstored).symm
  refine ⟨fun k => ?_, events, hevents, fun hknown => hnone fun row' hmem' hid => ?_, htrace⟩
  · have hiff : (∃ row' ∈ s.due, row'.id = row.id ∧ sweepRung row' = k) ↔ sweepRung row = k := by
      refine ⟨?_, fun he => ⟨row, hmem, rfl, he⟩⟩
      rintro ⟨row', hmem', hid, he⟩
      rwa [hsame row' hmem' hid] at he
    rw [hjobs k]
    simp only [hiff]
  · rw [hsame row' hmem' hid]
    exact hknown

/-- An orderly sweep enqueues an operation that has not been asked about yet, or
whose outcome is not unknown. -/
theorem sweep_good (horderly : Orderly s .sweep) (h : Good (s.view id)) :
    Good ((State.enqueueStuck s.due s).view id) := by
  by_cases hdue : ∃ row ∈ s.due, row.id = id
  · obtain ⟨row, hmem, rfl⟩ := hdue
    have hstored := due_stored hmem
    obtain ⟨hrow, -⟩ := @enqueueStuck_view s row.id s.due
    obtain ⟨hjobs, events, hevents, hnone, htrace⟩ := sweep_finds hmem
    generalize (State.enqueueStuck s.due s).view row.id = after at hrow hjobs htrace ⊢
    obtain ⟨rowAfter, jobsAfter, eventsAfter⟩ := after
    obtain rfl : rowAfter = some row := hrow.trans hstored
    dsimp only at hjobs htrace
    generalize hv : s.view row.id = v at h
    cases h with
    | absent => cases hstored.symm.trans (congrArg View.row hv)
    | fresh row' jobs events' hunknown hwaiting hone hswept =>
      obtain rfl : row = row' := Option.some.inj (hstored.symm.trans (congrArg View.row hv))
      obtain rfl : eventsOf row.id s.trace = events' := congrArg View.events hv
      have hjob : ∀ k, jobsAfter k = if sweepRung row = k then some (.waiting s.now) else none := by
        intro k
        rw [hjobs k]
        cases hget : s.queue.get (row.id, k) with
        | none => rfl
        | some state =>
          obtain ⟨⟨readyAt, rfl⟩, -⟩ := hwaiting k state
            ((congrFun (congrArg View.jobs hv) k).symm.trans hget)
          exact absurd hget (horderly row hmem hunknown k readyAt)
      have hrung : sweepRung row < unknownOutcomeLadderSeconds.length :=
        Nat.lt_of_le_of_lt (Nat.min_le_right _ _) (by decide)
      refine .fresh row _ _ hunknown (fun k state hstate => ?_) (fun k k' hk hk' => ?_) fun event hevent => ?_
      · rw [hjob k] at hstate
        by_cases hk : sweepRung row = k
        · rw [if_pos hk, Option.some.injEq] at hstate
          exact ⟨⟨s.now, hstate.symm⟩, hk ▸ hrung⟩
        · rw [if_neg hk] at hstate
          cases hstate
      · rw [hjob k] at hk
        rw [hjob k'] at hk'
        by_cases he : sweepRung row = k
        · by_cases he' : sweepRung row = k'
          · exact he.symm.trans he'
          · simp [he'] at hk'
        · simp [he] at hk
      · rw [htrace] at hevent
        obtain hnew | hold := List.mem_append.mp hevent
        · exact ⟨row.id, s.now, hevents event hnew⟩
        · exact hswept event hold
    | climbing row' jobs events' rung ranAt readyAt earlier hunknown _ _ _ hnext =>
      obtain rfl : row = row' := Option.some.inj (hstored.symm.trans (congrArg View.row hv))
      exact absurd ((congrFun (congrArg View.jobs hv) (rung + 1)).trans hnext)
        (horderly row hmem hunknown (rung + 1) readyAt)
    | done row' jobs events' hknown hpaced =>
      obtain rfl : row = row' := Option.some.inj (hstored.symm.trans (congrArg View.row hv))
      obtain rfl : eventsOf row.id s.trace = events' := congrArg View.events hv
      rw [hnone hknown, List.nil_append] at htrace
      rw [htrace]
      exact .done row _ _ hknown hpaced
  · rw [sweep_skips fun row hmem hid => hdue ⟨row, hmem, hid⟩]
    exact h

theorem accept_good {attempts : Nat} {queued : Bool} (h : Good (s.view id))
    (hnext : s.next (.accept other attempts queued) = some s') : Good (s'.view id) := by
  unfold State.next at hnext
  cases hrow : s.operations.get other with
  | some row => simp [hrow] at hnext
  | none =>
    simp only [hrow, Option.some.injEq] at hnext
    by_cases hid : id = other
    · subst hid
      generalize hv : s.view id = v at h
      cases h with
      | absent =>
        have hfree : ∀ k, s.queue.get (id, k) = none := congrFun (congrArg View.jobs hv)
        have hnil : eventsOf id s.trace = [] := congrArg View.events hv
        have hview : s'.view id = ⟨some ⟨id, .UNKNOWN, attempts, none, s.now⟩,
            fun k => if queued = true ∧ k = 0 then some (.waiting s.now) else none, []⟩ := by
          rw [← hnext]
          refine View.ext ?_ (funext fun k => ?_) ?_
          · cases queued <;> simp [State.view, State.put]
          · cases queued <;> simp [State.view, State.put, enqueue_get, hfree]
          · cases queued <;> simpa [State.view, State.put] using hnil
        rw [hview]
        refine .fresh _ _ _ rfl (fun k state hstate => ?_) (fun k k' hk hk' => ?_) (by simp)
        · by_cases hzero : queued = true ∧ k = 0
          · rw [if_pos hzero, Option.some.injEq] at hstate
            exact ⟨⟨s.now, hstate.symm⟩, by rw [hzero.2]; decide⟩
          · rw [if_neg hzero] at hstate
            cases hstate
        · by_cases hzero : queued = true ∧ k = 0
          · by_cases hzero' : queued = true ∧ k' = 0
            · exact hzero.2.trans hzero'.2.symm
            · simp [if_neg hzero'] at hk'
          · simp [if_neg hzero] at hk
      | fresh row => cases hrow.symm.trans (congrArg View.row hv)
      | climbing row => cases hrow.symm.trans (congrArg View.row hv)
      | done row => cases hrow.symm.trans (congrArg View.row hv)
    · have hview : s'.view id = s.view id := by
        rw [← hnext]
        cases queued with
        | true => exact (view_enqueue_ne hid 0).trans (view_put_ne hid)
        | false => exact view_put_ne hid
      rw [hview]
      exact h

theorem handed_good {answer : Answer} (h : Good (s.view id)) (horderly : Orderly s (.run id rung answer))
    (hrun : s.run id rung answer = some s') : Good (s'.view id) := by
  obtain ⟨readyAt, hget, hready, hs'⟩ := run_split hrun
  have hanswer : ∀ row, s.operations.get id = some row → row.status = .UNKNOWN →
      ∀ counted, answer ≠ .failed counted := by
    rintro row hrow hunknown counted rfl
    exact horderly row hrow hunknown
  generalize hv : s.view id = v at h
  cases h with
  | absent => cases hget.symm.trans (congrFun (congrArg View.jobs hv) rung)
  | fresh row jobs events hunknown hwaiting hone hswept =>
    have hrow : s.operations.get id = some row := congrArg View.row hv
    have hjobs : ∀ k, s.queue.get (id, k) = jobs k := congrFun (congrArg View.jobs hv)
    obtain rfl : eventsOf id s.trace = events := congrArg View.events hv
    have hran := ranOf_swept hswept
    refine run_good hrun hrow hunknown (hanswer row hrow hunknown)
      (paced_ran (paced_swept hswept) (hwaiting rung _ ((hjobs rung).symm.trans hget)).2 ?_) ?_
    · intro earlier rest he
      rw [hran] at he
      cases he
    · intro k hk state hstate
      refine absurd (hone k rung ?_ ?_) hk
      · rw [← hjobs k, hstate]
        rfl
      · rw [← hjobs rung, hget]
        rfl
  | climbing row jobs events last ranAt readyAt' earlier hunknown hpaced hran hlt hnext hdue hothers =>
    have hrow : s.operations.get id = some row := congrArg View.row hv
    have hjobs : ∀ k, s.queue.get (id, k) = jobs k := congrFun (congrArg View.jobs hv)
    obtain rfl : eventsOf id s.trace = events := congrArg View.events hv
    have hrung : rung = last + 1 := by
      by_contra hne
      cases (hothers rung hne _ ((hjobs rung).symm.trans hget)).1
    subst hrung
    have hsame : readyAt' = readyAt := by
      have he := hnext.symm.trans ((hjobs _).symm.trans hget)
      simpa using he
    refine run_good hrun hrow hunknown (hanswer row hrow hunknown) (paced_ran hpaced hlt ?_) ?_
    · intro query rest he
      rw [hran] at he
      obtain ⟨rfl, -⟩ := List.cons.inj he
      exact ⟨rfl, by dsimp only; omega⟩
    · intro k hk state hstate
      obtain ⟨hfinished, hle⟩ := hothers k hk state ((hjobs k).symm.trans hstate)
      exact ⟨hfinished, by omega⟩
  | done row jobs events hknown hpaced =>
    have hrow : s.operations.get id = some row := congrArg View.row hv
    obtain rfl : eventsOf id s.trace = events := congrArg View.events hv
    have hid : row.id = id := Rows.key_of_get hrow
    subst hid
    rw [hrow, Option.elim_some] at hs'
    rw [hs']
    obtain ⟨⟨row', hknown', hrow'⟩, hevents⟩ := @step_status
      (({ s with queue := s.queue.set (row.id, rung) .finished } : State).log row (.ran row.id rung s.now))
      row rung answer hknown
    rw [log_events, if_neg fun h => hknown h.1] at hevents
    generalize (State.step _ row rung answer).view row.id = after at hrow' hevents ⊢
    obtain ⟨rowAfter, jobsAfter, eventsAfter⟩ := after
    obtain rfl : rowAfter = some row' := hrow'
    obtain rfl : eventsAfter = eventsOf row.id s.trace := hevents
    exact .done row' _ _ hknown' hpaced

theorem forget_good (h : Good (s.view id)) (hnext : s.next (.forget other rung) = some s') :
    Good (s'.view id) := by
  unfold State.next at hnext
  cases hget : s.queue.get (other, rung) with
  | none => simp [hget] at hnext
  | some state =>
    cases state with
    | waiting readyAt => simp [hget] at hnext
    | finished =>
      simp only [hget, Option.some.injEq] at hnext
      have hjobs' : ∀ k, s'.queue.get (id, k) = if (id, k) = (other, rung) then none
        else s.queue.get (id, k) := by
        intro k
        rw [← hnext]
        exact Table.get_delete _ _ _
      have hview : s'.view id =
          ⟨s.operations.get id, fun k => if (id, k) = (other, rung) then none else s.queue.get (id, k),
            eventsOf id s.trace⟩ := by
        refine View.ext ?_ (funext hjobs') ?_ <;> rw [← hnext] <;> rfl
      have hleft : ∀ k state, (if (id, k) = (other, rung) then none else s.queue.get (id, k)) = some state →
          s.queue.get (id, k) = some state := by
        intro k state hstate
        by_cases hkey : (id, k) = (other, rung)
        · rw [if_pos hkey] at hstate
          cases hstate
        · rwa [if_neg hkey] at hstate
      rw [hview]
      generalize hv : s.view id = v at h
      cases h with
      | absent =>
        have hrow : s.operations.get id = none := congrArg View.row hv
        have hnil : eventsOf id s.trace = [] := congrArg View.events hv
        have hnone : ∀ k, (if (id, k) = (other, rung) then none else s.queue.get (id, k)) = none := by
          intro k
          cases he : if (id, k) = (other, rung) then none else s.queue.get (id, k) with
          | none => rfl
          | some state => cases (hleft k state he).symm.trans (congrFun (congrArg View.jobs hv) k)
        rw [hrow, hnil, funext hnone]
        exact .absent
      | fresh row jobs events hunknown hwaiting hone hswept =>
        have hrow : s.operations.get id = some row := congrArg View.row hv
        have hjobs : ∀ k, s.queue.get (id, k) = jobs k := congrFun (congrArg View.jobs hv)
        obtain rfl : eventsOf id s.trace = events := congrArg View.events hv
        have hsome : ∀ k, (if (id, k) = (other, rung) then none else s.queue.get (id, k)).isSome →
          (jobs k).isSome := by
          intro k hk
          obtain ⟨state, hstate⟩ := Option.isSome_iff_exists.mp hk
          rw [← hjobs k, hleft k state hstate]
          rfl
        rw [hrow]
        exact .fresh row _ _ hunknown (fun k state hk => hwaiting k state
          ((hjobs k).symm.trans (hleft k state hk)))
          (fun k k' hk hk' => hone k k' (hsome k hk) (hsome k' hk')) hswept
      | climbing row jobs events last ranAt readyAt earlier hunknown hpaced hran hlt hnext' hdue hothers =>
        have hrow : s.operations.get id = some row := congrArg View.row hv
        have hjobs : ∀ k, s.queue.get (id, k) = jobs k := congrFun (congrArg View.jobs hv)
        obtain rfl : eventsOf id s.trace = events := congrArg View.events hv
        have hwaits := (hjobs (last + 1)).trans hnext'
        have hkept : (id, last + 1) ≠ (other, rung) := by
          intro hkey
          rw [← hkey, hwaits] at hget
          cases hget
        rw [hrow]
        exact .climbing row _ _ last ranAt readyAt earlier hunknown hpaced hran hlt
          ((if_neg hkept).trans hwaits) hdue
          fun k hk state hstate => hothers k hk state ((hjobs k).symm.trans (hleft k state hstate))
      | done row jobs events hknown hpaced =>
        have hrow : s.operations.get id = some row := congrArg View.row hv
        obtain rfl : eventsOf id s.trace = events := congrArg View.events hv
        rw [hrow]
        exact .done row _ _ hknown hpaced

/-- What an orderly action makes of one operation. -/
theorem next_good {action : Action} (h : Good (s.view id)) (horderly : Orderly s action)
    (hnext : s.next action = some s') : Good (s'.view id) := by
  cases action with
  | tick ms =>
    obtain rfl := Option.some.inj hnext
    exact h
  | sweep =>
    obtain rfl := Option.some.inj hnext
    exact sweep_good horderly h
  | accept other attempts queued => exact accept_good h hnext
  | forget other rung => exact forget_good h hnext
  | run other rung answer =>
    by_cases hid : id = other
    · subst hid
      exact handed_good h horderly hnext
    · rw [run_view_ne hnext hid]
      exact h

theorem performAll_good {actions : List Action} (h : Good (s.view id)) (horderly : OrderlyAll s actions)
    (hs : performAll s actions = some s') : Good (s'.view id) := by
  induction actions generalizing s with
  | nil =>
    obtain rfl := Option.some.inj hs
    exact h
  | cons action actions ih =>
    obtain ⟨hfirst, hrest⟩ := horderly
    obtain ⟨u, hu, hs⟩ := Option.bind_eq_some_iff.mp hs
    exact ih (next_good h hfirst hu) (hrest u hu) hs

/-- The rungs that have run come one above the other. -/
theorem chain_forward {queries : List (Nat × Int)} (h : queries.IsChain Follows) :
    queries.Pairwise fun later earlier => earlier.1 ≤ later.1 := by
  have hchain : queries.IsChain fun later earlier => earlier.1 ≤ later.1 :=
    h.imp fun later earlier hfollows => by rw [hfollows.1]; exact Nat.le_succ _
  have : IsTrans (Nat × Int) fun later earlier => earlier.1 ≤ later.1 := ⟨fun _ _ _ hab hbc => hbc.trans hab⟩
  exact List.isChain_iff_pairwise.mp hchain

end Invariant

variable {repository : Repository} {now : Int} {actions : List Action} {s : State}

/-- In a run whose steps are orderly no sweep enqueues an operation before the
time of its next rung, no rung comes after a higher one, and at no time has the
provider been asked more often than the schedule allows since the first time. -/
theorem orderly_ladder_paced (horderly : OrderlyAll (start repository now) actions)
    (hs : performAll (start repository now) actions = some s) (id : String) :
    Respected (eventsOf id s.trace) ∧
      ((ranOf (eventsOf id s.trace)).Pairwise fun later earlier => earlier.1 ≤ later.1) ∧
      ∀ first, (ranOf (eventsOf id s.trace)).getLast? = some first → ∀ deadline,
        ((ranOf (eventsOf id s.trace)).filter fun query => query.2 ≤ deadline).length ≤
          allowance (deadline - first.2) := by
  have hstart : Good ((start repository now).view id) := .absent
  have hpaced : Paced (eventsOf id s.trace) := (performAll_good hstart horderly hs).paced
  exact ⟨hpaced.respected, chain_forward hpaced.chained,
    fun first hfirst deadline => chain_allowed hpaced.chained hpaced.bounded hfirst deadline⟩

def calmActions : List Action :=
  [.sweep, .accept "opr_1" 1 true, .run "opr_1" 0 (.absent true), .tick 15000,
    .run "opr_1" 1 (.found .SETTLED)]

theorem calmActions_orderly : OrderlyAll (start .prisma 0) calmActions :=
  ⟨fun _ hmem => (nomatch hmem), fun _ _ => ⟨trivial, fun _ _ => ⟨trivial, fun _ _ => ⟨trivial, fun _ _ =>
    ⟨trivial, fun _ _ => trivial⟩⟩⟩⟩⟩

def ranAfter (repository : Repository) (actions : List Action) : Option (List (Nat × Int)) :=
  (performAll (start repository 0) actions).map fun s => ranOf (eventsOf "opr_1" s.trace)

theorem orderly_ladder_paced_calm : ∃ s, performAll (start .prisma 0) calmActions = some s ∧
    ((ranOf (eventsOf "opr_1" s.trace)).filter fun query => query.2 ≤ 15000).length ≤ allowance 15000 := by
  have hran : ranAfter .prisma calmActions = some [(1, 15000), (0, 0)] := by decide
  obtain ⟨s, hs, hqueries⟩ := Option.map_eq_some_iff.mp hran
  obtain ⟨-, -, hallowed⟩ := orderly_ladder_paced calmActions_orderly hs "opr_1"
  exact ⟨s, hs, hallowed (0, 0) (by rw [hqueries]; rfl) 15000⟩

/-- A sweep one second after the first rung enqueues the operation again, and its
third rung runs before the second. -/
def hastyActions : List Action :=
  [.accept "opr_1" 1 true, .run "opr_1" 0 (.absent true), .tick 1000, .sweep, .run "opr_1" 2 (.absent true),
    .tick 14000, .run "opr_1" 1 (.absent true)]

theorem sweep_outruns_ladder :
    ¬ ∃ repository, ∀ (now : Int) (actions : List Action) (s : State),
      performAll (start repository now) actions = some s → ∀ id,
      Respected (eventsOf id s.trace) ∧
      ((ranOf (eventsOf id s.trace)).Pairwise fun later earlier => earlier.1 ≤ later.1) ∧
      ∀ first, (ranOf (eventsOf id s.trace)).getLast? = some first → ∀ deadline,
        ((ranOf (eventsOf id s.trace)).filter fun query => query.2 ≤ deadline).length ≤
          allowance (deadline - first.2) := by
  rintro ⟨repository, h⟩
  have hran : ranAfter repository hastyActions = some [(1, 15000), (2, 1000), (0, 0)] := by
    cases repository <;> decide
  obtain ⟨s, hs, hqueries⟩ := Option.map_eq_some_iff.mp hran
  obtain ⟨-, hforward, -⟩ := h 0 hastyActions s hs "opr_1"
  rw [hqueries] at hforward
  revert hforward
  decide

end BaasConnector.Worker.LadderPacing
