import BaasConnector.Lib.Keyed

namespace BaasConnector.Webhooks.KeyedMutex

open BaasConnector.Lib.Keyed

variable {ε α : Type}

/-- A call of `runExclusive`, how far its task has come, and whether its tail is fulfilled. It waits
for the tail of `previous`, or for no other call. -/
structure Call (ε α : Type) where
  key : String
  previous : Option Nat
  started : Bool
  outcome : Option (Except ε α)
  tailed : Bool
  returned : Option (Except ε α)

/-- A tail in the map is known by its call. -/
structure State (ε α : Type) where
  tails : Table String Nat
  calls : List (Call ε α)

inductive Action (ε α : Type)
  | runExclusive (key : String)
  | start (call : Nat)
  | settle (call : Nat) (outcome : Except ε α)
  | tail (call : Nat)
  | resume (call : Nat)

namespace State

variable (s : State ε α)

def initial : State ε α := ⟨.empty, []⟩

def pendingKeys : Nat := s.tails.rows.length

def runExclusive (key : String) : State ε α where
  tails := s.tails.set key s.calls.length
  calls := s.calls ++ [⟨key, s.tails.get key, false, none, false, none⟩]

def tailed (i : Nat) : Bool := (s.calls[i]?).any Call.tailed

def canStart (i : Nat) : Bool := (s.calls[i]?).any fun call => !call.started && call.previous.all s.tailed

def canSettle (i : Nat) : Bool := (s.calls[i]?).any fun call => call.started && call.outcome.isNone

def canTail (i : Nat) : Bool := (s.calls[i]?).any fun call => call.outcome.isSome && !call.tailed

def canResume (i : Nat) : Bool := (s.calls[i]?).any fun call => call.outcome.isSome && call.returned.isNone

/-- The `finally` of a call: its tail leaves the map unless another call has taken the key. -/
def leave (i : Nat) : State ε α :=
  match s.calls[i]? with
  | some call => if s.tails.get call.key = some i then { s with tails := s.tails.delete call.key } else s
  | none => s

def modify (i : Nat) (f : Call ε α → Call ε α) : State ε α := { s with calls := s.calls.modify i f }

/-- Reactions to promises run in some order, each once what it waits for is settled. -/
def step (action : Action ε α) : State ε α :=
  match action with
  | .runExclusive key => s.runExclusive key
  | .start i => if s.canStart i then s.modify i fun call => { call with started := true } else s
  | .settle i outcome => if s.canSettle i then s.modify i fun call =>
      { call with outcome := some outcome } else s
  | .tail i => if s.canTail i then s.modify i fun call => { call with tailed := true } else s
  | .resume i =>
    if s.canResume i then (s.leave i).modify i fun call => { call with returned := call.outcome } else s

/-- No reaction is left to run. -/
def Quiet : Prop := ∀ i, s.canStart i = false ∧ s.canTail i = false ∧ s.canResume i = false

/-- The task of a call has started and not ended. -/
def Running (i : Nat) : Prop := s.canSettle i = true

end State

def run (actions : List (Action ε α)) : State ε α := actions.foldl State.step .initial

/-- What the mutex promises of a state. -/
structure Exclusive (s : State ε α) : Prop where
  disjoint : ∀ (i j : Nat) call call', s.calls[i]? = some call → s.calls[j]? = some call' →
    call.key = call'.key →
    s.Running i → s.Running j → i = j
  ordered : ∀ (i j : Nat) call call', i < j → s.calls[i]? = some call → s.calls[j]? = some call' →
    call.key = call'.key → call'.started = true → call.outcome.isSome = true
  own : ∀ (i : Nat) call outcome, s.calls[i]? = some call → call.returned = some outcome →
    call.outcome = some outcome
  unhindered : s.Quiet → ∀ (j : Nat) call, s.calls[j]? = some call → call.started = false →
    ∃ i call', i < j ∧ s.calls[i]? = some call' ∧ call'.key = call.key ∧ s.Running i
  emptied : (∀ call ∈ s.calls, call.returned.isSome = true) → s.pendingKeys = 0

structure Staged (call : Call ε α) : Prop where
  started : call.outcome.isSome = true → call.started = true
  settled : call.tailed = true → call.outcome.isSome = true
  own : ∀ outcome, call.returned = some outcome → call.outcome = some outcome

structure Inv (s : State ε α) : Prop where
  staged : ∀ (i : Nat) call, s.calls[i]? = some call → Staged call
  ordered : ∀ (i j : Nat) call call', i < j → s.calls[i]? = some call → s.calls[j]? = some call' →
    call.key = call'.key → call'.started = true → call.outcome.isSome = true
  queued : ∀ (j : Nat) call p, s.calls[j]? = some call → call.previous = some p → p < j ∧
    (∃ before, s.calls[p]? = some before ∧ before.key = call.key) ∧
      ∀ (i : Nat) other, p < i → i < j → s.calls[i]? = some other → other.key ≠ call.key
  first : ∀ (j : Nat) call, s.calls[j]? = some call → call.previous = none →
    ∀ (i : Nat) other, i < j → s.calls[i]? = some other → other.key = call.key → other.outcome.isSome = true
  held : ∀ key p, s.tails.get key = some p →
    (∃ call, s.calls[p]? = some call ∧ call.key = key ∧ call.returned = none) ∧
      ∀ (i : Nat) other, p < i → s.calls[i]? = some other → other.key ≠ key
  free : ∀ key, s.tails.get key = none → ∀ (i : Nat) call, s.calls[i]? = some call → call.key = key →
    call.outcome.isSome = true

variable {s : State ε α} {i : Nat}

theorem getElem?_of_modify {calls : List (Call ε α)} {f : Call ε α → Call ε α} {j : Nat} {call' : Call ε α}
    (h : (calls.modify i f)[j]? = some call') :
    ∃ call, calls[j]? = some call ∧ call' = if i = j then f call else call := by
  rw [List.getElem?_modify] at h
  obtain ⟨call, hcall, rfl⟩ := Option.map_eq_some_iff.1 h
  exact ⟨call, hcall, by split <;> rfl⟩

/-- What a reaction may change of its call. -/
structure Advances (s : State ε α) (i : Nat) (f : Call ε α → Call ε α) : Prop where
  key : ∀ call, (f call).key = call.key
  previous : ∀ call, (f call).previous = call.previous
  outcome : ∀ call, call.outcome.isSome = true → (f call).outcome.isSome = true
  staged : ∀ call, s.calls[i]? = some call → Staged (f call)
  ordered : ∀ call, s.calls[i]? = some call → (f call).started = true → ∀ (k : Nat) other, k < i →
    s.calls[k]? = some other → other.key = call.key → other.outcome.isSome = true
  held : ∀ call, s.calls[i]? = some call → s.tails.get call.key = some i → (f call).returned = none

variable {f : Call ε α → Call ε α}

theorem Advances.of_modify (hf : Advances s i f) {j : Nat} {call' : Call ε α}
    (h : (s.modify i f).calls[j]? = some call') :
    ∃ call, s.calls[j]? = some call ∧ call'.key = call.key ∧ call'.previous = call.previous ∧
      (call.outcome.isSome = true → call'.outcome.isSome = true) ∧ call' = if i =
        j then f call else call := by
  obtain ⟨call, hcall, hnew⟩ := getElem?_of_modify h
  refine ⟨call, hcall, ?_⟩
  rw [hnew]
  split
  · exact ⟨hf.key call, hf.previous call, hf.outcome call, rfl⟩
  · exact ⟨rfl, rfl, fun hsome => hsome, rfl⟩

theorem Advances.modify (hf : Advances s i f) {j : Nat} {call : Call ε α} (h : s.calls[j]? = some call) :
    ∃ call', (s.modify i f).calls[j]? = some call' ∧ call'.key = call.key ∧ call' = if i =
      j then f call else call := by
  refine ⟨if i = j then f call else call, ?_, ?_, rfl⟩
  · rw [State.modify, List.getElem?_modify, h]
    split
    · rfl
    · rfl
  · split
    · exact hf.key call
    · rfl

theorem Inv.modify (h : Inv s) (hf : Advances s i f) : Inv (s.modify i f) where
  staged := by
    intro j call' hcall'
    obtain ⟨call, hcall, -, -, -, hnew⟩ := hf.of_modify hcall'
    rw [hnew]
    split
    · next hij =>
      subst hij
      exact hf.staged call hcall
    · exact h.staged j call hcall
  ordered := by
    intro k j other' call' hlt hother' hcall' hkey hstarted
    obtain ⟨other, hother, hotherKey, -, houtcome, -⟩ := hf.of_modify hother'
    obtain ⟨call, hcall, hcallKey, -, -, hnew⟩ := hf.of_modify hcall'
    have hsame : other.key = call.key := by rw [← hotherKey, ← hcallKey, hkey]
    apply houtcome
    split at hnew
    · next hij =>
      subst hij hnew
      exact hf.ordered call hcall hstarted k other hlt hother hsame
    · subst hnew
      exact h.ordered k j other call' hlt hother hcall hsame hstarted
  queued := by
    intro j call' p hcall' hprevious
    obtain ⟨call, hcall, hkey, hold, -, -⟩ := hf.of_modify hcall'
    obtain ⟨hlt, ⟨before, hbefore, hbeforeKey⟩, hbetween⟩ := h.queued j call p hcall (hold ▸ hprevious)
    obtain ⟨before', hbefore', hbeforeKey', -⟩ := hf.modify hbefore
    refine ⟨hlt, ⟨before', hbefore', by rw [hbeforeKey', hbeforeKey, hkey]⟩,
      fun k other' hpk hkj hother' => ?_⟩
    obtain ⟨other, hother, hotherKey, -⟩ := hf.of_modify hother'
    rw [hotherKey, hkey]
    exact hbetween k other hpk hkj hother
  first := by
    intro j call' hcall' hprevious k other' hlt hother' hsame
    obtain ⟨call, hcall, hkey, hold, -, -⟩ := hf.of_modify hcall'
    obtain ⟨other, hother, hotherKey, -, houtcome, -⟩ := hf.of_modify hother'
    exact houtcome (h.first j call hcall (hold ▸ hprevious) k other hlt hother
      (by rw [← hotherKey, hsame, hkey]))
  held := by
    intro key p hget
    obtain ⟨⟨call, hcall, rfl, hreturned⟩, hlast⟩ := h.held key p hget
    obtain ⟨call', hcall', hkey, hnew⟩ := hf.modify hcall
    refine ⟨⟨call', hcall', hkey, ?_⟩, fun k other' hlt hother' => ?_⟩
    · rw [hnew]
      split
      · next hip =>
        subst hip
        exact hf.held call hcall hget
      · exact hreturned
    · obtain ⟨other, hother, hotherKey, -⟩ := hf.of_modify hother'
      rw [hotherKey]
      exact hlast k other hlt hother
  free := by
    intro key hget k call' hcall' hkey'
    obtain ⟨call, hcall, hkey, -, houtcome, -⟩ := hf.of_modify hcall'
    exact houtcome (h.free key hget k call hcall (hkey ▸ hkey'))

/-- The calls before one that has settled have settled. -/
theorem Inv.settled_before (h : Inv s) {j : Nat} {other call : Call ε α} (hlt : i < j)
    (hother : s.calls[i]? = some other)
    (hcall : s.calls[j]? = some call) (hkey : other.key = call.key) (hsettled : call.outcome.isSome = true) :
    other.outcome.isSome = true :=
  h.ordered i j other call hlt hother hcall hkey ((h.staged j call hcall).started hsettled)

theorem canStart_iff : s.canStart i = true ↔ ∃ call, s.calls[i]? = some call ∧ call.started = false ∧
    ∀ p ∈ call.previous, s.tailed p = true := by
  simp [State.canStart, Option.any_eq_true, Option.all_eq_true]

theorem canSettle_iff : s.canSettle i = true ↔ ∃ call, s.calls[i]? = some call ∧ call.started = true ∧
    call.outcome = none := by
  simp [State.canSettle, Option.any_eq_true]

theorem canTail_iff : s.canTail i = true ↔ ∃ call, s.calls[i]? = some call ∧ call.outcome.isSome = true ∧
    call.tailed = false := by
  simp [State.canTail, Option.any_eq_true]

theorem canResume_iff : s.canResume i = true ↔ ∃ call, s.calls[i]? = some call ∧ call.outcome.isSome = true ∧
    call.returned = none := by
  simp [State.canResume, Option.any_eq_true]

theorem tailed_iff : s.tailed i = true ↔ ∃ call, s.calls[i]? = some call ∧ call.tailed = true := by
  simp [State.tailed, Option.any_eq_true]

/-- Whatever a call waits for, the calls of its key before it have settled when it starts. -/
theorem Inv.ready (h : Inv s) {call : Call ε α} (hcall : s.calls[i]? = some call)
    (hready : ∀ p ∈ call.previous, s.tailed p = true) (k : Nat) (other : Call ε α) (hlt : k < i)
    (hother : s.calls[k]? = some other) (hkey : other.key = call.key) : other.outcome.isSome = true := by
  cases hprevious : call.previous with
  | none => exact h.first i call hcall hprevious k other hlt hother hkey
  | some p =>
    obtain ⟨-, ⟨before, hbefore, hbeforeKey⟩, hbetween⟩ := h.queued i call p hcall hprevious
    obtain ⟨tailed, htailed, htail⟩ := tailed_iff.1 (hready p hprevious)
    obtain rfl := Option.some.inj (hbefore.symm.trans htailed)
    have hsettled := (h.staged p before hbefore).settled htail
    obtain hkp | rfl | hpk := Nat.lt_trichotomy k p
    · exact h.settled_before hkp hother hbefore (hkey.trans hbeforeKey.symm) hsettled
    · exact (Option.some.inj (hbefore.symm.trans hother)) ▸ hsettled
    · exact absurd hkey (hbetween k other hpk hlt hother)

theorem Inv.start (h : Inv s) (hcan : s.canStart i = true) :
    Inv (s.modify i fun call => { call with started := true }) := by
  obtain ⟨call, hcall, hstarted, hready⟩ := canStart_iff.1 hcan
  have hstaged := h.staged i call hcall
  have hreturned : call.returned = none := by
    by_contra hne
    obtain ⟨outcome, houtcome⟩ := Option.ne_none_iff_exists'.1 hne
    have hyes := hstaged.started (by rw [hstaged.own outcome houtcome]; rfl)
    rw [hstarted] at hyes
    cases hyes
  refine h.modify ⟨fun _ => rfl, fun _ => rfl, fun _ hsome => hsome, ?_, ?_, ?_⟩
  · intro call' hcall'
    obtain rfl := Option.some.inj (hcall.symm.trans hcall')
    exact ⟨fun _ => rfl, hstaged.settled, hstaged.own⟩
  · intro call' hcall' _
    obtain rfl := Option.some.inj (hcall.symm.trans hcall')
    exact h.ready hcall hready
  · intro call' hcall' _
    obtain rfl := Option.some.inj (hcall.symm.trans hcall')
    exact hreturned

theorem Inv.settle (h : Inv s) (outcome : Except ε α) (hcan : s.canSettle i = true) :
    Inv (s.modify i fun call => { call with outcome := some outcome }) := by
  obtain ⟨call, hcall, hstarted, hnone⟩ := canSettle_iff.1 hcan
  have hreturned : call.returned = none := by
    by_contra hne
    obtain ⟨result, hresult⟩ := Option.ne_none_iff_exists'.1 hne
    have hsome := (h.staged i call hcall).own result hresult
    rw [hnone] at hsome
    cases hsome
  refine h.modify ⟨fun _ => rfl, fun _ => rfl, fun _ _ => rfl, ?_, ?_, ?_⟩
  · intro call' hcall'
    obtain rfl := Option.some.inj (hcall.symm.trans hcall')
    exact ⟨fun _ => hstarted, fun _ => rfl, fun result hresult => by simp [hreturned] at hresult⟩
  · intro call' hcall' hstarted' k other hlt hother hkey
    exact h.ordered k i other call' hlt hother hcall' hkey hstarted'
  · intro call' hcall' _
    obtain rfl := Option.some.inj (hcall.symm.trans hcall')
    exact hreturned

theorem Inv.tail (h : Inv s) (hcan : s.canTail i = true) :
    Inv (s.modify i fun call => { call with tailed := true }) := by
  obtain ⟨call, hcall, hsettled, -⟩ := canTail_iff.1 hcan
  refine h.modify ⟨fun _ => rfl, fun _ => rfl, fun _ hsome => hsome, ?_, ?_, ?_⟩
  · intro call' hcall'
    obtain rfl := Option.some.inj (hcall.symm.trans hcall')
    exact ⟨(h.staged i call hcall).started, fun _ => hsettled, (h.staged i call hcall).own⟩
  · intro call' hcall' hstarted k other hlt hother hkey
    exact h.ordered k i other call' hlt hother hcall' hkey hstarted
  · intro call' hcall' hget
    obtain ⟨⟨held, hheld, -, hreturned⟩, -⟩ := h.held call'.key i hget
    exact (Option.some.inj (hcall'.symm.trans hheld)) ▸ hreturned

theorem leave_calls (s : State ε α) (i : Nat) : (s.leave i).calls = s.calls := by
  unfold State.leave
  split
  · split
    · rfl
    · rfl
  · rfl

theorem leave_get {call : Call ε α} (hcall : s.calls[i]? = some call) (key : String) :
    (s.leave i).tails.get key = if key = call.key ∧ s.tails.get key = some i then none
      else s.tails.get key := by
  unfold State.leave
  rw [hcall]
  simp only
  by_cases hown : s.tails.get call.key = some i
  · rw [if_pos hown, Table.get_delete]
    by_cases hkey : key = call.key
    · rw [if_pos hkey, if_pos ⟨hkey, hkey ▸ hown⟩]
    · rw [if_neg hkey, if_neg (by rintro ⟨heq, -⟩; exact hkey heq)]
  · rw [if_neg hown, if_neg (by rintro ⟨rfl, hget⟩; exact hown hget)]

/-- A key whose tail leaves the map has no call that is not settled. -/
theorem Inv.leave (h : Inv s) {call : Call ε α} (hcall : s.calls[i]? = some call)
    (hsettled : call.outcome.isSome = true) : Inv (s.leave i) := by
  have hcalls := leave_calls s i
  refine ⟨by rw [hcalls]; exact h.staged, by rw [hcalls]; exact h.ordered, by rw [hcalls]; exact h.queued,
    by rw [hcalls]; exact h.first, ?_, ?_⟩
  · intro key p hget
    rw [leave_get hcall] at hget
    split at hget
    · cases hget
    · rw [hcalls]
      exact h.held key p hget
  · intro key hget k other hother hkey
    rw [hcalls] at hother
    rw [leave_get hcall] at hget
    split at hget
    · next hown =>
      obtain ⟨-, hlast⟩ := h.held key i hown.2
      obtain hki | rfl | hik := Nat.lt_trichotomy k i
      · exact h.settled_before hki hother hcall (hkey.trans hown.1) hsettled
      · exact (Option.some.inj (hcall.symm.trans hother)) ▸ hsettled
      · exact absurd hkey (hlast k other hik hother)
    · exact h.free key hget k other hother hkey

theorem Inv.resume (h : Inv s) (hcan : s.canResume i = true) :
    Inv ((s.leave i).modify i fun call => { call with returned := call.outcome }) := by
  obtain ⟨call, hcall, hsettled, -⟩ := canResume_iff.1 hcan
  have hleft := h.leave hcall hsettled
  refine hleft.modify ⟨fun _ => rfl, fun _ => rfl, fun _ hsome => hsome, ?_, ?_, ?_⟩
  · intro call' hcall'
    have hstaged := hleft.staged i call' hcall'
    exact ⟨hstaged.started, hstaged.settled, fun outcome houtcome => houtcome⟩
  · intro call' hcall' hstarted k other hlt hother hkey
    exact hleft.ordered k i other call' hlt hother hcall' hkey hstarted
  · intro call' hcall' hget
    rw [leave_calls] at hcall'
    rw [leave_get hcall'] at hget
    split at hget
    · cases hget
    · next hown => exact absurd ⟨rfl, hget⟩ hown

theorem getElem?_runExclusive {key : String} {j : Nat} {call : Call ε α} :
    (s.runExclusive key).calls[j]? = some call ↔ s.calls[j]? = some call ∨
      j = s.calls.length ∧ call = ⟨key, s.tails.get key, false, none, false, none⟩ := by
  rw [State.runExclusive]
  simp only
  rw [List.getElem?_append]
  split
  · next hlt => simp [Nat.ne_of_lt hlt]
  · next hge =>
    rw [List.getElem?_eq_none (Nat.not_lt.1 hge), List.getElem?_singleton]
    split
    · next hzero =>
      have hj : j = s.calls.length := by omega
      simp [hj, eq_comm]
    · next hne =>
      have hj : j ≠ s.calls.length := by omega
      simp [hj]

theorem lt_length {j : Nat} {call : Call ε α} (h : s.calls[j]? = some call) : j < s.calls.length :=
  (List.getElem?_eq_some_iff.1 h).1

theorem Inv.runExclusive (h : Inv s) (key : String) : Inv (s.runExclusive key) where
  staged := by
    intro j call hcall
    obtain hcall | ⟨-, rfl⟩ := getElem?_runExclusive.1 hcall
    · exact h.staged j call hcall
    · exact ⟨nofun, nofun, nofun⟩
  ordered := by
    intro k j other call hlt hother hcall hkey hstarted
    obtain hcall | ⟨-, rfl⟩ := getElem?_runExclusive.1 hcall
    · obtain hother | ⟨rfl, -⟩ := getElem?_runExclusive.1 hother
      · exact h.ordered k j other call hlt hother hcall hkey hstarted
      · exact absurd (lt_length hcall) (by omega)
    · cases hstarted
  queued := by
    intro j call p hcall hprevious
    obtain hcall | ⟨rfl, rfl⟩ := getElem?_runExclusive.1 hcall
    · obtain ⟨hlt, ⟨before, hbefore, hbeforeKey⟩, hbetween⟩ := h.queued j call p hcall hprevious
      refine ⟨hlt, ⟨before, getElem?_runExclusive.2 (.inl hbefore), hbeforeKey⟩,
        fun k other hpk hkj hother => ?_⟩
      obtain hother | ⟨rfl, -⟩ := getElem?_runExclusive.1 hother
      · exact hbetween k other hpk hkj hother
      · exact absurd (lt_length hcall) (by omega)
    · obtain ⟨⟨before, hbefore, hbeforeKey, -⟩, hlast⟩ := h.held key p hprevious
      refine ⟨lt_length hbefore, ⟨before, getElem?_runExclusive.2 (.inl hbefore), hbeforeKey⟩,
        fun k other hpk hkj hother => ?_⟩
      obtain hother | ⟨rfl, -⟩ := getElem?_runExclusive.1 hother
      · exact hlast k other hpk hother
      · exact absurd hkj (Nat.lt_irrefl _)
  first := by
    intro j call hcall hprevious k other hlt hother hkey
    obtain hcall | ⟨rfl, rfl⟩ := getElem?_runExclusive.1 hcall
    · obtain hother | ⟨rfl, -⟩ := getElem?_runExclusive.1 hother
      · exact h.first j call hcall hprevious k other hlt hother hkey
      · exact absurd (lt_length hcall) (by omega)
    · obtain hother | ⟨rfl, -⟩ := getElem?_runExclusive.1 hother
      · exact h.free key hprevious k other hother hkey
      · exact absurd hlt (Nat.lt_irrefl _)
  held := by
    intro key' p hget
    simp only [State.runExclusive, Table.get_set] at hget
    split at hget
    · next hkey =>
      cases hget
      refine ⟨⟨_, getElem?_runExclusive.2 (.inr ⟨rfl, rfl⟩), hkey.symm, rfl⟩, fun k other hlt hother => ?_⟩
      obtain hother | ⟨rfl, -⟩ := getElem?_runExclusive.1 hother
      · exact absurd (lt_length hother) (by omega)
      · exact absurd hlt (Nat.lt_irrefl _)
    · next hkey =>
      obtain ⟨⟨call, hcall, hcallKey, hreturned⟩, hlast⟩ := h.held key' p hget
      refine ⟨⟨call, getElem?_runExclusive.2 (.inl hcall), hcallKey, hreturned⟩, fun k other hlt hother => ?_⟩
      obtain hother | ⟨-, rfl⟩ := getElem?_runExclusive.1 hother
      · exact hlast k other hlt hother
      · exact Ne.symm hkey
  free := by
    intro key' hget k call hcall hcallKey
    simp only [State.runExclusive, Table.get_set] at hget
    split at hget
    · cases hget
    · next hkey =>
      obtain hcall | ⟨-, rfl⟩ := getElem?_runExclusive.1 hcall
      · exact h.free key' hget k call hcall hcallKey
      · exact absurd hcallKey.symm hkey

theorem Inv.initial : Inv (State.initial : State ε α) := by
  have hnone : ∀ (i : Nat) call, (State.initial : State ε α).calls[i]? ≠ some call := by
    intro i call
    simp [State.initial]
  refine ⟨fun i call h => absurd h (hnone i call), fun i j call call' _ h => absurd h (hnone i call),
    fun j call p h => absurd h (hnone j call), fun j call h => absurd h (hnone j call), ?_,
    fun key _ i call h => absurd h (hnone i call)⟩
  intro key p hget
  cases hget

theorem Inv.step (h : Inv s) (action : Action ε α) : Inv (s.step action) := by
  cases action with
  | runExclusive key => exact h.runExclusive key
  | start i =>
    rw [State.step]
    split
    · next hcan => exact h.start hcan
    · exact h
  | settle i outcome =>
    rw [State.step]
    split
    · next hcan => exact h.settle outcome hcan
    · exact h
  | tail i =>
    rw [State.step]
    split
    · next hcan => exact h.tail hcan
    · exact h
  | resume i =>
    rw [State.step]
    split
    · next hcan => exact h.resume hcan
    · exact h

theorem run_inv (actions : List (Action ε α)) : Inv (run actions) := by
  induction actions using List.reverseRecOn with
  | nil => exact .initial
  | append_singleton actions action ih =>
    rw [run, List.foldl_append]
    exact ih.step action

/-- With no reaction left to run, what a call waits for has not settled. -/
theorem Inv.unhindered (h : Inv s) (hquiet : s.Quiet) {j : Nat} {call : Call ε α}
    (hcall : s.calls[j]? = some call)
    (hwaits : call.started = false) :
    ∃ (i : Nat) (call' : Call ε α), i < j ∧ s.calls[i]? = some call' ∧ call'.key =
      call.key ∧ s.Running i := by
  induction j using Nat.strongRecOn generalizing call with
  | ind j ih =>
    have hblocked : ¬ ∀ p ∈ call.previous, s.tailed p = true := by
      intro hready
      have hcan := canStart_iff.2 ⟨call, hcall, hwaits, hready⟩
      rw [(hquiet j).1] at hcan
      cases hcan
    obtain ⟨p, hp⟩ := not_forall.1 hblocked
    obtain ⟨hprevious, hnot⟩ := Classical.not_imp.1 hp
    obtain ⟨hlt, ⟨before, hbefore, hkey⟩, -⟩ := h.queued j call p hcall hprevious
    have hpending : before.outcome = none := by
      by_contra hne
      have hcan := canTail_iff.2 ⟨before, hbefore, Option.isSome_iff_ne_none.2 hne, by
        by_contra htailed
        exact hnot (tailed_iff.2 ⟨before, hbefore, by simpa using htailed⟩)⟩
      rw [(hquiet p).2.1] at hcan
      cases hcan
    cases hstarted : before.started with
    | true => exact ⟨p, before, hlt, hbefore, hkey, canSettle_iff.2 ⟨before, hbefore, hstarted, hpending⟩⟩
    | false =>
      obtain ⟨i, other, hip, hother, hotherKey, hrunning⟩ := ih p hlt hbefore hstarted
      exact ⟨i, other, hip.trans hlt, hother, hotherKey.trans hkey, hrunning⟩

theorem Inv.emptied (h : Inv s) (hreturned : ∀ call ∈ s.calls, call.returned.isSome = true) :
    s.pendingKeys = 0 := by
  rw [State.pendingKeys, List.length_eq_zero_iff, List.eq_nil_iff_forall_not_mem]
  rintro ⟨key, p⟩ hmem
  have hget : s.tails.get key = some p := (lookup_eq_some s.tails.nodup).2 hmem
  obtain ⟨⟨call, hcall, -, hnone⟩, -⟩ := h.held key p hget
  have hsome := hreturned call (List.mem_of_getElem? hcall)
  rw [hnone] at hsome
  cases hsome

end BaasConnector.Webhooks.KeyedMutex
