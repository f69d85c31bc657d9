import BaasConnector.Lib.History
import Mathlib

namespace BaasConnector.AdapterKit.TokenStore

open BaasConnector.Lib.History

inductive Outcome
  | underway
  | resolved (expiresInSeconds : ℚ)
  | rejected
deriving DecidableEq

/-- One call of `fetch`. It is finished when its `finally` has run. -/
structure Flight where
  startedAt : ℚ
  outcome : Outcome
  finished : Bool
deriving DecidableEq

/-- A token in the cache is known by the fetch that brought it. -/
structure CachedToken where
  flight : Nat
  expiresAtMs : ℚ
deriving DecidableEq

inductive Event
  | called (call : Nat)
  | served (flight : Nat) (now : ℚ)
  | handedOut (call flight : Nat)
  | invalidated
deriving DecidableEq

/-- One key of the store, with the fetches so far and, for each call of
`getOrFetch`, the fetch whose token it waits for. -/
structure State where
  cache : Option CachedToken
  inFlight : Option Nat
  flights : List Flight
  calls : List Nat
  log : List Event
deriving DecidableEq

def State.initial : State := ⟨none, none, [], [], []⟩

inductive Action
  | getOrFetch (now : ℚ)
  | resolve (flight : Nat) (expiresInSeconds : ℚ)
  | reject (flight : Nat)
  | finish (flight : Nat)
  | handOut (call : Nat)
  | invalidate
deriving DecidableEq

variable (skewSeconds : ℚ)

def ttlSeconds (expiresInSeconds : ℚ) : ℚ := max 30 (expiresInSeconds - skewSeconds)

namespace State

variable (s : State)

def record (event : Event) : State := { s with log := s.log ++ [event] }

def call (flight : Nat) : State :=
  { s with calls := s.calls ++ [flight], log := s.log ++ [.called s.calls.length] }

def startFetch (now : ℚ) : State :=
  { s with inFlight := some s.flights.length, flights := s.flights ++ [⟨now, .underway, false⟩] }

def getOrFetch (now : ℚ) : State :=
  match s.cache.filter fun cached => decide (now < cached.expiresAtMs), s.inFlight with
  | some cached, _ => (s.call cached.flight).record (.served cached.flight now)
  | none, some pending => s.call pending
  | none, none => (s.call s.flights.length).startFetch now

/-- The `then` of a fetch that brought a token. -/
def resolve (flight : Nat) (expiresInSeconds : ℚ) : State :=
  match s.flights[flight]? with
  | some ⟨startedAt, .underway, finished⟩ =>
    { s with
      flights := s.flights.set flight ⟨startedAt, .resolved expiresInSeconds, finished⟩
      cache := some ⟨flight, startedAt + ttlSeconds skewSeconds expiresInSeconds * 1000⟩ }
  | _ => s

def reject (flight : Nat) : State :=
  match s.flights[flight]? with
  | some ⟨startedAt, .underway, finished⟩ =>
    { s with flights := s.flights.set flight ⟨startedAt, .rejected, finished⟩ }
  | _ => s

/-- The `finally` of a fetch that has ended. -/
def finish (flight : Nat) : State :=
  match s.flights[flight]? with
  | some ⟨_, .underway, _⟩ => s
  | some ⟨startedAt, outcome, false⟩ =>
    { s with flights := s.flights.set flight ⟨startedAt, outcome, true⟩, inFlight := none }
  | _ => s

/-- A call resumes with its token. The `finally` of the fetch was queued before
every resumption with its token. -/
def handOut (call : Nat) : State :=
  match s.calls[call]? with
  | some flight =>
    match s.flights[flight]? with
    | some ⟨_, .resolved _, true⟩ => s.record (.handedOut call flight)
    | _ => s
  | none => s

def invalidate : State := { s.record .invalidated with cache := none }

end State

def step (s : State) : Action → State
  | .getOrFetch now => s.getOrFetch now
  | .resolve flight expiresInSeconds => s.resolve skewSeconds flight expiresInSeconds
  | .reject flight => s.reject flight
  | .finish flight => s.finish flight
  | .handOut call => s.handOut call
  | .invalidate => s.invalidate

def run (actions : List Action) : State := actions.foldl (step skewSeconds) .initial

/-- The token of the fetch was handed out, and the key invalidated after it. -/
def Retired (log : List Event) (flight : Nat) : Prop :=
  ∃ before call after, log = before ++ .handedOut call flight :: after ∧ .invalidated ∈ after

/-- What the store promises of a run. -/
structure Sound (s : State) : Prop where
  single : ∀ (f g : Nat) (startedAt startedAt' : ℚ) (finished finished' : Bool),
    s.flights[f]? = some ⟨startedAt, .underway, finished⟩ →
      s.flights[g]? = some ⟨startedAt', .underway, finished'⟩ → f = g
  cached : ∀ cached, s.cache = some cached → ∃ startedAt expiresInSeconds finished,
    s.flights[cached.flight]? = some ⟨startedAt, .resolved expiresInSeconds, finished⟩
  live : ∀ f now, .served f now ∈ s.log → ∃ startedAt expiresInSeconds finished,
    s.flights[f]? = some ⟨startedAt, .resolved expiresInSeconds, finished⟩ ∧ now < startedAt +
      expiresInSeconds * 1000
  renewed : ∀ before call after f, s.log = before ++ .called call :: after → Retired before f →
    .handedOut call f ∉ s.log

theorem Retired.handedOut {log : List Event} {f : Nat} (h : Retired log f) :
    ∃ call, .handedOut call f ∈ log := by
  obtain ⟨before, call, after, rfl, _⟩ := h
  exact ⟨call, by simp⟩

theorem retired_append {log : List Event} {e : Event} {f : Nat} (he : e ≠ .invalidated) :
    Retired (log ++ [e]) f ↔ Retired log f := by
  constructor
  · intro h
    obtain ⟨before, call, after, hlog, hinvalidated⟩ := h
    obtain ⟨_, rfl⟩ | ⟨rest, rfl, hold⟩ := append_split hlog
    · obtain rfl : after = [] := by
        have hlength := congrArg List.length hlog
        simp_all
      cases hinvalidated
    · refine ⟨before, call, rest, hold, ?_⟩
      obtain h | h := List.mem_append.mp hinvalidated
      · exact h
      · exact absurd (List.mem_singleton.mp h).symm he
  · intro h
    obtain ⟨before, call, after, rfl, hinvalidated⟩ := h
    exact ⟨before, call, after ++ [e], by simp, List.mem_append_left _ hinvalidated⟩

/-- The calls wait for tokens that were not retired when they started. -/
def StartedFresh (calls : List Nat) (before : List Event) : Event → Prop
  | .called call => ∀ f, calls[call]? = some f → ¬ Retired before f
  | _ => True

structure Inv (s : State) : Prop where
  unfinished : ∀ (f : Nat) (startedAt : ℚ) (outcome : Outcome), s.flights[f]? =
    some ⟨startedAt, outcome, false⟩ → s.inFlight = some f
  pending : ∀ f, s.inFlight = some f → ∃ startedAt outcome, s.flights[f]? = some ⟨startedAt, outcome, false⟩
  underway : ∀ (f : Nat) (startedAt : ℚ) (finished : Bool), s.flights[f]? =
    some ⟨startedAt, .underway, finished⟩ → finished = false
  cached : ∀ cached, s.cache = some cached → ∃ startedAt expiresInSeconds finished,
    s.flights[cached.flight]? = some ⟨startedAt, .resolved expiresInSeconds, finished⟩ ∧
      cached.expiresAtMs = startedAt + ttlSeconds skewSeconds expiresInSeconds * 1000
  served : ∀ f now, .served f now ∈ s.log → ∃ startedAt expiresInSeconds finished,
    s.flights[f]? = some ⟨startedAt, .resolved expiresInSeconds, finished⟩ ∧
      now < startedAt + ttlSeconds skewSeconds expiresInSeconds * 1000
  handed : ∀ call f, .handedOut call f ∈ s.log → s.calls[call]? = some f ∧
    ∃ startedAt outcome, s.flights[f]? = some ⟨startedAt, outcome, true⟩
  called : ∀ call, .called call ∈ s.log → call < s.calls.length
  fresh : ∀ cached, s.cache = some cached → ¬ Retired s.log cached.flight
  started : Always (StartedFresh s.calls) s.log

variable {skewSeconds} {s : State}

theorem Inv.initial : Inv skewSeconds .initial where
  unfinished _ _ _ h := nomatch h
  pending _ h := nomatch h
  underway _ _ _ h := nomatch h
  cached _ h := nomatch h
  served _ _ h := nomatch h
  handed _ _ h := nomatch h
  called _ h := nomatch h
  fresh _ h := nomatch h
  started := always_nil

theorem getElem?_of_append {flights more : List Flight} {f : Nat} {flight : Flight}
    (h : flights[f]? = some flight) : (flights ++ more)[f]? = some flight :=
  (List.getElem?_append_left (List.getElem?_eq_some_iff.mp h).1).trans h

theorem mem_record {e event : Event} : e ∈ (s.record event).log ↔ e ∈ s.log ∨ e = event := by
  simp [State.record]

/-- A token that nobody has yet is not retired. -/
theorem Inv.not_retired (h : Inv skewSeconds s) {f : Nat}
    (hf : ∀ startedAt outcome, s.flights[f]? ≠ some ⟨startedAt, outcome, true⟩) : ¬ Retired s.log f := by
  intro hretired
  obtain ⟨call, hcall⟩ := hretired.handedOut
  obtain ⟨startedAt, outcome, hflight⟩ := (h.handed call f hcall).2
  exact hf startedAt outcome hflight

theorem Inv.call (h : Inv skewSeconds s) {f : Nat} (hf : ¬ Retired s.log f) : Inv skewSeconds (s.call f) where
  unfinished := h.unfinished
  pending := h.pending
  underway := h.underway
  cached := h.cached
  served g now hg := h.served g now (by simpa [State.call] using hg)
  handed call g hg := by
    obtain ⟨hcall, hflight⟩ := h.handed call g (by simpa [State.call] using hg)
    refine ⟨?_, hflight⟩
    have hlt := (List.getElem?_eq_some_iff.mp hcall).1
    exact (List.getElem?_append_left hlt).trans hcall
  called call hcall := by
    simp only [State.call, List.mem_append, List.mem_singleton, Event.called.injEq] at hcall
    simp only [State.call, List.length_append, List.length_singleton]
    obtain hcall | rfl := hcall
    · have hlt := h.called call hcall
      omega
    · omega
  fresh cached hc hretired := h.fresh cached hc ((retired_append (by simp)).mp hretired)
  started := by
    refine (always_append _).mpr ⟨h.started.imp fun before action haction hfresh => ?_, fun g hg => ?_⟩
    · cases action with
      | called call =>
        intro g hg
        rw [State.call, List.getElem?_append_left (h.called call haction)] at hg
        exact hfresh g hg
      | _ => trivial
    · rw [State.call, List.getElem?_concat_length, Option.some.injEq] at hg
      exact hg ▸ hf

theorem Inv.recordServed (h : Inv skewSeconds s) {f : Nat}
    {now startedAt expiresInSeconds : ℚ} {finished : Bool}
    (hf : s.flights[f]? = some ⟨startedAt, .resolved expiresInSeconds, finished⟩)
    (hnow : now < startedAt + ttlSeconds skewSeconds expiresInSeconds * 1000) :
    Inv skewSeconds (s.record (.served f now)) where
  unfinished := h.unfinished
  pending := h.pending
  underway := h.underway
  cached := h.cached
  served g at' hg := by
    obtain hg | hg := mem_record.mp hg
    · exact h.served g at' hg
    · cases hg
      exact ⟨startedAt, expiresInSeconds, finished, hf, hnow⟩
  handed call g hg := h.handed call g (by simpa [mem_record] using hg)
  called call hcall := h.called call (by simpa [mem_record] using hcall)
  fresh cached hc hretired := h.fresh cached hc ((retired_append (by simp)).mp hretired)
  started := (always_append _).mpr ⟨h.started, trivial⟩

theorem Inv.startFetch (h : Inv skewSeconds s) (hnone : s.inFlight = none) (now : ℚ) :
    Inv skewSeconds (s.startFetch now) where
  unfinished f startedAt outcome hf := by
    rw [State.startFetch, List.getElem?_append] at hf
    split at hf
    · have hpending := h.unfinished f startedAt outcome hf
      rw [hnone] at hpending
      cases hpending
    · next hlt =>
      have hindex := (List.getElem?_eq_some_iff.mp hf).1
      have heq : f = s.flights.length := by
        rw [List.length_singleton] at hindex
        omega
      rw [heq]
      rfl
  pending f hf := by
    obtain rfl := Option.some.inj hf
    exact ⟨now, .underway, List.getElem?_concat_length⟩
  underway f startedAt finished hf := by
    rw [State.startFetch, List.getElem?_append] at hf
    split at hf
    · exact h.underway f startedAt finished hf
    · have hnew := List.mem_singleton.mp (List.mem_of_getElem? hf)
      cases hnew
      rfl
  cached cached hc := by
    obtain ⟨startedAt, expiresInSeconds, finished, hf, hexpires⟩ := h.cached cached hc
    exact ⟨startedAt, expiresInSeconds, finished, getElem?_of_append hf, hexpires⟩
  served g at' hg := by
    obtain ⟨startedAt, expiresInSeconds, finished, hf, hlive⟩ := h.served g at' hg
    exact ⟨startedAt, expiresInSeconds, finished, getElem?_of_append hf, hlive⟩
  handed call g hg := by
    obtain ⟨hcall, startedAt, outcome, hf⟩ := h.handed call g hg
    exact ⟨hcall, startedAt, outcome, getElem?_of_append hf⟩
  called := h.called
  fresh := h.fresh
  started := h.started

theorem Inv.getOrFetch (h : Inv skewSeconds s) (now : ℚ) : Inv skewSeconds (s.getOrFetch now) := by
  unfold State.getOrFetch
  split
  · next cached hc =>
    rw [Option.filter_eq_some_iff, decide_eq_true_eq] at hc
    obtain ⟨startedAt, expiresInSeconds, finished, hf, hexpires⟩ := h.cached cached hc.1
    exact (h.call (h.fresh cached hc.1)).recordServed hf (hexpires ▸ hc.2)
  · next pending _ hpending =>
    obtain ⟨startedAt, outcome, hf⟩ := h.pending pending hpending
    refine h.call (h.not_retired fun startedAt' outcome' hf' => ?_)
    rw [hf] at hf'
    cases hf'
  · next hpending =>
    refine Inv.startFetch (h.call (h.not_retired fun startedAt outcome hf => ?_)) hpending now
    rw [List.getElem?_eq_none (Nat.le_refl _)] at hf
    cases hf

/-- The fetch ends while its `finally` is still to run. -/
theorem Inv.ended (h : Inv skewSeconds s) {f : Nat} {startedAt : ℚ} {finished : Bool}
    (hf : s.flights[f]? = some ⟨startedAt, .underway, finished⟩) (outcome : Outcome) :
    Inv skewSeconds { s with flights := s.flights.set f ⟨startedAt, outcome, finished⟩ } := by
  obtain rfl := h.underway f startedAt finished hf
  have hself : (s.flights.set f ⟨startedAt, outcome, false⟩)[f]? = some ⟨startedAt, outcome, false⟩ :=
    List.getElem?_set_self (List.getElem?_eq_some_iff.mp hf).1
  have hother : ∀ g, f ≠ g → (s.flights.set f ⟨startedAt, outcome, false⟩)[g]? = s.flights[g]? :=
    fun g hg => List.getElem?_set_ne hg
  have hkept : ∀ (g : Nat) (flight : Flight), s.flights[g]? = some flight →
    flight ≠ ⟨startedAt, .underway, false⟩ →
      (s.flights.set f ⟨startedAt, outcome, false⟩)[g]? = some flight := by
    intro g flight hg hne
    refine (hother g fun hfg => hne ?_).trans hg
    rw [← hfg, hf, Option.some.injEq] at hg
    exact hg.symm
  constructor
  case unfinished =>
    intro g startedAt' outcome' hg
    by_cases hgf : f = g
    · exact hgf ▸ h.unfinished f startedAt .underway hf
    · exact h.unfinished g startedAt' outcome' ((hother g hgf).symm.trans hg)
  case pending =>
    intro g hg
    by_cases hgf : f = g
    · exact hgf ▸ ⟨startedAt, outcome, hself⟩
    · simpa only [hother g hgf] using h.pending g hg
  case underway =>
    intro g startedAt' finished' hg
    by_cases hgf : f = g
    · rw [← hgf, hself, Option.some.injEq, Flight.mk.injEq] at hg
      exact hg.2.2.symm
    · exact h.underway g startedAt' finished' ((hother g hgf).symm.trans hg)
  case cached =>
    intro cached hc
    obtain ⟨startedAt', expiresInSeconds, finished', hg, hexpires⟩ := h.cached cached hc
    exact ⟨startedAt', expiresInSeconds, finished', hkept _ _ hg (by simp), hexpires⟩
  case served =>
    intro g instant hserved
    obtain ⟨startedAt', expiresInSeconds, finished', hg, hlive⟩ := h.served g instant hserved
    exact ⟨startedAt', expiresInSeconds, finished', hkept _ _ hg (by simp), hlive⟩
  case handed =>
    intro call g hhanded
    obtain ⟨hcall, startedAt', outcome', hg⟩ := h.handed call g hhanded
    exact ⟨hcall, startedAt', outcome', hkept _ _ hg (by simp)⟩
  case called => exact h.called
  case fresh => exact h.fresh
  case started => exact h.started

theorem Inv.resolve (h : Inv skewSeconds s) (f : Nat) (expiresInSeconds : ℚ) :
    Inv skewSeconds (s.resolve skewSeconds f expiresInSeconds) := by
  unfold State.resolve
  split
  · next startedAt finished hf =>
    obtain rfl := h.underway f startedAt finished hf
    have hended := h.ended hf (.resolved expiresInSeconds)
    have hself := List.getElem?_set_self (a := Flight.mk startedAt (.resolved expiresInSeconds) false)
      (List.getElem?_eq_some_iff.mp hf).1
    refine { hended with cached := ?_, fresh := ?_ }
    · intro cached hc
      obtain rfl := Option.some.inj hc
      exact ⟨startedAt, expiresInSeconds, false, hself, rfl⟩
    · intro cached hc
      obtain rfl := Option.some.inj hc
      refine h.not_retired fun startedAt' outcome' hf' => ?_
      rw [hf] at hf'
      cases hf'
  · exact h

theorem Inv.reject (h : Inv skewSeconds s) (f : Nat) : Inv skewSeconds (s.reject f) := by
  unfold State.reject
  split
  · next hf => exact h.ended hf .rejected
  · exact h

theorem Inv.finished (h : Inv skewSeconds s) {f : Nat} {startedAt : ℚ} {outcome : Outcome}
    (hf : s.flights[f]? = some ⟨startedAt, outcome, false⟩) (ho : outcome ≠ .underway) :
    Inv skewSeconds { s with flights := s.flights.set f ⟨startedAt, outcome, true⟩, inFlight := none } := by
  have hself : (s.flights.set f ⟨startedAt, outcome, true⟩)[f]? = some ⟨startedAt, outcome, true⟩ :=
    List.getElem?_set_self (List.getElem?_eq_some_iff.mp hf).1
  have hother : ∀ g, f ≠ g → (s.flights.set f ⟨startedAt, outcome, true⟩)[g]? = s.flights[g]? :=
    fun g hg => List.getElem?_set_ne hg
  have hkept : ∀ (g : Nat) (startedAt' : ℚ) (outcome' : Outcome) (finished' : Bool),
      s.flights[g]? = some ⟨startedAt', outcome', finished'⟩ → ∃ finished'',
        (s.flights.set f ⟨startedAt, outcome, true⟩)[g]? = some ⟨startedAt', outcome', finished''⟩ := by
    intro g startedAt' outcome' finished' hg
    by_cases hgf : f = g
    · rw [← hgf, hf, Option.some.injEq, Flight.mk.injEq] at hg
      exact ⟨true, by rw [← hgf, hself, hg.1, hg.2.1]⟩
    · exact ⟨finished', (hother g hgf).trans hg⟩
  have hpending := h.unfinished f startedAt outcome hf
  constructor
  case unfinished =>
    intro g startedAt' outcome' hg
    by_cases hgf : f = g
    · rw [← hgf, hself, Option.some.injEq, Flight.mk.injEq] at hg
      exact absurd hg.2.2 Bool.true_eq_false.mp
    · have hpending' := h.unfinished g startedAt' outcome' ((hother g hgf).symm.trans hg)
      exact absurd (Option.some.inj (hpending.symm.trans hpending')) hgf
  case pending => exact fun g hg => nomatch hg
  case underway =>
    intro g startedAt' finished' hg
    by_cases hgf : f = g
    · rw [← hgf, hself, Option.some.injEq, Flight.mk.injEq] at hg
      exact absurd hg.2.1 ho
    · exact h.underway g startedAt' finished' ((hother g hgf).symm.trans hg)
  case cached =>
    intro cached hc
    obtain ⟨startedAt', expiresInSeconds, finished', hg, hexpires⟩ := h.cached cached hc
    obtain ⟨finished'', hg'⟩ := hkept _ _ _ _ hg
    exact ⟨startedAt', expiresInSeconds, finished'', hg', hexpires⟩
  case served =>
    intro g instant hserved
    obtain ⟨startedAt', expiresInSeconds, finished', hg, hlive⟩ := h.served g instant hserved
    obtain ⟨finished'', hg'⟩ := hkept _ _ _ _ hg
    exact ⟨startedAt', expiresInSeconds, finished'', hg', hlive⟩
  case handed =>
    intro call g hhanded
    obtain ⟨hcall, startedAt', outcome', hg⟩ := h.handed call g hhanded
    by_cases hgf : f = g
    · exact ⟨hcall, startedAt, outcome, hgf ▸ hself⟩
    · exact ⟨hcall, startedAt', outcome', (hother g hgf).trans hg⟩
  case called => exact h.called
  case fresh => exact h.fresh
  case started => exact h.started

theorem Inv.finish (h : Inv skewSeconds s) (f : Nat) : Inv skewSeconds (s.finish f) := by
  unfold State.finish
  split
  · exact h
  · next hended hf => exact h.finished hf hended
  · exact h

theorem Inv.handOut (h : Inv skewSeconds s) (call : Nat) : Inv skewSeconds (s.handOut call) := by
  unfold State.handOut
  split
  · next f hcall =>
    split
    · next startedAt expiresInSeconds hf =>
      constructor
      case unfinished => exact h.unfinished
      case pending => exact h.pending
      case underway => exact h.underway
      case cached => exact h.cached
      case served => exact fun g instant hg => h.served g instant (by simpa [mem_record] using hg)
      case handed =>
        intro call' g hg
        obtain hg | hg := mem_record.mp hg
        · exact h.handed call' g hg
        · cases hg
          exact ⟨hcall, startedAt, _, hf⟩
      case called => exact fun call' hcall' => h.called call' (by simpa [mem_record] using hcall')
      case fresh => exact fun cached hc hretired => h.fresh cached hc ((retired_append (by simp)).mp hretired)
      case started => exact (always_append _).mpr ⟨h.started, trivial⟩
    · exact h
  · exact h

theorem Inv.invalidate (h : Inv skewSeconds s) : Inv skewSeconds s.invalidate where
  unfinished := h.unfinished
  pending := h.pending
  underway := h.underway
  cached _ hc := nomatch hc
  served g instant hg := h.served g instant (by simpa [mem_record] using mem_record.mp hg)
  handed call g hg := h.handed call g (by simpa [mem_record] using mem_record.mp hg)
  called call hcall := h.called call (by simpa [mem_record] using mem_record.mp hcall)
  fresh _ hc := nomatch hc
  started := (always_append _).mpr ⟨h.started, trivial⟩

theorem Inv.step (h : Inv skewSeconds s) (action : Action) : Inv skewSeconds (step skewSeconds s action) := by
  cases action with
  | getOrFetch now => exact h.getOrFetch now
  | resolve f expiresInSeconds => exact h.resolve f expiresInSeconds
  | reject f => exact h.reject f
  | finish f => exact h.finish f
  | handOut call => exact h.handOut call
  | invalidate => exact h.invalidate

theorem run_append (actions : List Action) (last : Action) :
    run skewSeconds (actions ++ [last]) = TokenStore.step skewSeconds (run skewSeconds actions) last := by
  rw [run, List.foldl_append]
  rfl

theorem run_inv (actions : List Action) : Inv skewSeconds (run skewSeconds actions) := by
  induction actions using List.reverseRecOn with
  | nil => exact .initial
  | append_singleton actions last ih =>
    rw [run_append]
    exact ih.step last

end BaasConnector.AdapterKit.TokenStore
