import BaasConnector.AdapterKit.TokenStore

namespace BaasConnector.AdapterKit.TokenLifetimes

open BaasConnector.Lib.History BaasConnector.AdapterKit.TokenStore

variable {skewSeconds : ℚ} {s : State}

/-- The fetches that ended with a token did so by an action of the run. -/
theorem step_resolved {action : Action} {f : Nat} {startedAt expiresInSeconds : ℚ} {finished : Bool}
    (h : (step skewSeconds s action).flights[f]? = some ⟨startedAt, .resolved expiresInSeconds, finished⟩) :
    (∃ finished', s.flights[f]? = some ⟨startedAt, .resolved expiresInSeconds, finished'⟩) ∨
      action = .resolve f expiresInSeconds := by
  have hset : ∀ (g : Nat) (flight : Flight),
      (s.flights.set g flight)[f]? = some ⟨startedAt, .resolved expiresInSeconds, finished⟩ →
      s.flights[f]? = some ⟨startedAt, .resolved expiresInSeconds, finished⟩ ∨
        g = f ∧ flight = ⟨startedAt, .resolved expiresInSeconds, finished⟩ := by
    intro g flight hg
    rw [List.getElem?_set] at hg
    split at hg
    · next hgf =>
      split at hg
      · exact .inr ⟨hgf, Option.some.inj hg⟩
      · cases hg
    · exact .inl hg
  cases action with
  | getOrFetch now =>
    simp only [step, State.getOrFetch] at h
    split at h
    · exact .inl ⟨finished, h⟩
    · exact .inl ⟨finished, h⟩
    · rw [State.startFetch, List.getElem?_append] at h
      split at h
      · exact .inl ⟨finished, h⟩
      · have hnew := List.mem_singleton.mp (List.mem_of_getElem? h)
        cases hnew
  | resolve g expiresInSeconds' =>
    simp only [step, State.resolve] at h
    split at h
    · obtain hold | ⟨rfl, hnew⟩ := hset _ _ h
      · exact .inl ⟨finished, hold⟩
      · cases hnew
        exact .inr rfl
    · exact .inl ⟨finished, h⟩
  | reject g =>
    simp only [step, State.reject] at h
    split at h
    · obtain hold | ⟨_, hnew⟩ := hset _ _ h
      · exact .inl ⟨finished, hold⟩
      · cases hnew
    · exact .inl ⟨finished, h⟩
  | finish g =>
    simp only [step, State.finish] at h
    split at h
    · exact .inl ⟨finished, h⟩
    · next hg =>
      obtain hold | ⟨rfl, hnew⟩ := hset _ _ h
      · exact .inl ⟨finished, hold⟩
      · cases hnew
        exact .inl ⟨false, hg⟩
    · exact .inl ⟨finished, h⟩
  | handOut call =>
    simp only [step, State.handOut] at h
    split at h
    · split at h <;> exact .inl ⟨finished, h⟩
    · exact .inl ⟨finished, h⟩
  | invalidate => exact .inl ⟨finished, h⟩

theorem run_resolved {actions : List Action} {f : Nat} {startedAt expiresInSeconds : ℚ} {finished : Bool}
    (h : (run skewSeconds actions).flights[f]? = some ⟨startedAt, .resolved expiresInSeconds, finished⟩) :
    ∃ g, .resolve g expiresInSeconds ∈ actions := by
  induction actions using List.reverseRecOn generalizing finished with
  | nil => cases h
  | append_singleton actions last ih =>
    rw [run_append] at h
    obtain ⟨finished', hold⟩ | rfl := step_resolved h
    · obtain ⟨g, hg⟩ := ih hold
      exact ⟨g, List.mem_append_left _ hg⟩
    · exact ⟨f, by simp⟩

/-- The store keeps its promises as long as it keeps no token beyond its lifetime. -/
theorem sound_of_inv (h : Inv skewSeconds s)
    (hlife : ∀ (f : Nat) (startedAt expiresInSeconds : ℚ) (finished : Bool),
      s.flights[f]? = some ⟨startedAt, .resolved expiresInSeconds, finished⟩ →
        ttlSeconds skewSeconds expiresInSeconds ≤ expiresInSeconds) : Sound s where
  single f g startedAt startedAt' finished finished' hf hg := by
    obtain rfl := h.underway f startedAt finished hf
    obtain rfl := h.underway g startedAt' finished' hg
    exact Option.some.inj ((h.unfinished f _ _ hf).symm.trans (h.unfinished g _ _ hg))
  cached cached hc := by
    obtain ⟨startedAt, expiresInSeconds, finished, hf, _⟩ := h.cached cached hc
    exact ⟨startedAt, expiresInSeconds, finished, hf⟩
  live f now hserved := by
    obtain ⟨startedAt, expiresInSeconds, finished, hf, hnow⟩ := h.served f now hserved
    have hle := hlife f startedAt expiresInSeconds finished hf
    exact ⟨startedAt, expiresInSeconds, finished, hf, by linarith⟩
  renewed before call after f hlog hretired hhanded :=
    h.started before (.called call) after hlog f (h.handed call f hhanded).1 hretired

/-- A call at the end of a lifetime that the store outlasts. -/
def lateCall (expiresInSeconds : ℚ) : List Action :=
  [.getOrFetch 0, .resolve 0 expiresInSeconds, .finish 0, .getOrFetch (expiresInSeconds * 1000)]

theorem run_lateCall {expiresInSeconds : ℚ} (h : expiresInSeconds < ttlSeconds skewSeconds expiresInSeconds) :
    run skewSeconds (lateCall expiresInSeconds) =
      ⟨some ⟨0, ttlSeconds skewSeconds expiresInSeconds * 1000⟩, none,
        [⟨0, .resolved expiresInSeconds, true⟩],
        [0, 0], [.called 0, .called 1, .served 0 (expiresInSeconds * 1000)]⟩ := by
  have hlate : expiresInSeconds * 1000 < ttlSeconds skewSeconds expiresInSeconds * 1000 := by linarith
  simp [run, lateCall, step, State.initial, State.getOrFetch, State.startFetch, State.call, State.resolve,
    State.finish, State.record, Option.filter_some, hlate]

theorem lateCall_unsound {expiresInSeconds : ℚ}
    (h : expiresInSeconds < ttlSeconds skewSeconds expiresInSeconds) :
    ¬ Sound (run skewSeconds (lateCall expiresInSeconds)) := by
  intro hsound
  rw [run_lateCall h] at hsound
  obtain ⟨startedAt, expiresInSeconds', finished, hf, hnow⟩ :=
    hsound.live 0 (expiresInSeconds * 1000) (by simp)
  simp only [List.getElem?_cons_zero, Option.some.injEq, Flight.mk.injEq, Outcome.resolved.injEq] at hf
  obtain ⟨rfl, rfl, _⟩ := hf
  linarith

/-- One fetch at a time, no rejected fetch cached, no token served beyond its
lifetime and none handed out again after an invalidation: for tokens of the given
lifetimes this holds of every run, exactly when none of them is shorter than the
time the store keeps it. -/
theorem tokens_never_stale_iff (skewSeconds : ℚ) (lifetimes : Set ℚ) :
    (∀ actions, (∀ f expiresInSeconds, .resolve f expiresInSeconds ∈ actions → expiresInSeconds ∈ lifetimes) →
      Sound (run skewSeconds actions)) ↔
      ∀ expiresInSeconds ∈ lifetimes, max 30 (expiresInSeconds - skewSeconds) ≤ expiresInSeconds := by
  constructor
  · intro h expiresInSeconds hmem
    by_contra hlt
    refine lateCall_unsound (not_le.mp hlt) (h _ fun f e he => ?_)
    simp only [lateCall, List.mem_cons, reduceCtorEq, Action.resolve.injEq, List.not_mem_nil, or_false,
      false_or] at he
    exact he.2 ▸ hmem
  · intro h actions hactions
    refine sound_of_inv (run_inv actions) fun f startedAt expiresInSeconds finished hf => ?_
    obtain ⟨g, hg⟩ := run_resolved hf
    exact h expiresInSeconds (hactions g expiresInSeconds hg)

/-- A token of ten seconds is served when the ten seconds are over. -/
theorem short_token_served_stale :
    .served 0 10000 ∈ (run 60 (lateCall 10)).log ∧ ¬ Sound (run 60 (lateCall 10)) := by
  have hshort : (10 : ℚ) < ttlSeconds 60 10 := by norm_num [ttlSeconds]
  refine ⟨?_, lateCall_unsound hshort⟩
  rw [run_lateCall hshort]
  norm_num

end BaasConnector.AdapterKit.TokenLifetimes
