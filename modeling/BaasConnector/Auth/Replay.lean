import BaasConnector.Auth.Signature
import Mathlib.Logic.Relation
import Mathlib.Tactic.Linarith

namespace BaasConnector.Auth.Replay

open BaasConnector.Lib.Keyed BaasConnector.Taxonomy.Errors BaasConnector.Auth.Signature

section Store

variable {seen seen' : NonceStore} {now : Int}

theorem forgetExpired_get {k : String} {expiry : Int} (h : seen.get k = some expiry) (hlive : now < expiry) :
    (forgetExpired seen now).get k = some expiry := by
  unfold forgetExpired
  refine List.foldlRecOn (motive := fun t : NonceStore => t.get k = some expiry) seen.rows _ h
    fun t ht row hrow => ?_
  by_cases hexpired : row.2 ≤ now
  · have hget : seen.get row.1 = some row.2 := (lookup_eq_some seen.nodup).mpr hrow
    have hne : k ≠ row.1 := by
      rintro rfl
      rw [h, Option.some.injEq] at hget
      omega
    rw [if_pos hexpired, Table.get_delete, if_neg hne]
    exact ht
  · rwa [if_neg hexpired]

/-- What one claim makes of the stored nonces: it keeps those that live, and it
succeeds only for one that does not. -/
structure Claimed (seen : NonceStore) (now : Int) (composite : String) (ttlSeconds : Nat)
    (r : Except Thrown Bool) (seen' : NonceStore) : Prop where
  keeps : ∀ k expiry, seen.get k = some expiry → now < expiry → ∃ later, seen'.get k =
    some later ∧ expiry ≤ later
  fresh : r = .ok true → seen'.get composite = some (now + ttlSeconds * 1000) ∧
    ∀ expiry, seen.get composite = some expiry → expiry ≤ now

theorem set_keeps {composite k : String} {expiry later : Int}
    (hfree : ∀ expiry, seen.get composite = some expiry → expiry ≤ now)
    (h : seen.get k = some expiry) (hlive : now < expiry) :
    ∃ later', (seen.set composite later).get k = some later' ∧ expiry ≤ later' := by
  have hne : k ≠ composite := by
    rintro rfl
    have := hfree expiry h
    omega
  exact ⟨expiry, by rw [Table.get_set_ne _ _ hne, h], Int.le_refl expiry⟩

theorem redisClaim_claimed (composite : String) (ttlSeconds : Nat) :
    Claimed seen now composite ttlSeconds (redisClaim seen now composite ttlSeconds).1
      (redisClaim seen now composite ttlSeconds).2 := by
  unfold redisClaim
  split
  · exact ⟨fun k expiry h _ => ⟨expiry, h, Int.le_refl expiry⟩, fun h => by cases h⟩
  · split
    · exact ⟨fun k expiry h _ => ⟨expiry, h, Int.le_refl expiry⟩, fun h => by cases h⟩
    · next hdead =>
      have hfree : ∀ expiry, seen.get composite = some expiry → expiry ≤ now := by
        intro expiry h
        rw [h] at hdead
        simpa using hdead
      exact ⟨fun k expiry h hlive => set_keeps hfree h hlive,
        fun _ => ⟨Table.get_set_self _ _ _, hfree⟩⟩

theorem inMemoryClaim_claimed (composite : String) (ttlSeconds : Nat) :
    Claimed seen now composite ttlSeconds (inMemoryClaim seen now composite ttlSeconds).1
      (inMemoryClaim seen now composite ttlSeconds).2 := by
  unfold inMemoryClaim
  dsimp only
  split
  · exact ⟨fun k expiry h hlive => ⟨expiry, forgetExpired_get h hlive, Int.le_refl expiry⟩,
      fun h => by cases h⟩
  · next hfree =>
    have hnone : (forgetExpired seen now).get composite = none := by simpa using hfree
    refine ⟨fun k expiry h hlive => ?_, fun _ => ⟨Table.get_set_self _ _ _, fun expiry h => ?_⟩⟩
    · have hkept := forgetExpired_get h hlive
      have hfree' : ∀ e, (forgetExpired seen now).get composite = some e → e ≤ now := by simp [hnone]
      exact set_keeps hfree' hkept hlive
    · by_contra hlive
      have hkept := forgetExpired_get h (Int.not_le.mp hlive)
      rw [hnone] at hkept
      cases hkept

def composite (kind : NonceStoreKind) (keyId nonce : String) : String :=
  match kind with
  | .redis => "baas:nonce:" ++ keyId ++ ":" ++ nonce
  | .inMemory => keyId ++ ":" ++ nonce

theorem claim_claimed (seen : NonceStore) (now : Int) (kind : NonceStoreKind) (keyId nonce : String)
    (ttlSeconds : Nat) :
    Claimed seen now (composite kind keyId nonce) ttlSeconds (claim kind seen now keyId nonce ttlSeconds).1
      (claim kind seen now keyId nonce ttlSeconds).2 := by
  cases kind with
  | redis => exact redisClaim_claimed _ _
  | inMemory => exact inMemoryClaim_claimed _ _

end Store

variable {runtime : Runtime} {kind : NonceStoreKind} {tol : Nat}

/-- The clock is read inside the window of a request. -/
def InWindow (runtime : Runtime) (tol : Nat) (a : Arrival) : Prop :=
  ∃ timestamp, runtime.number a.input.timestamp = some timestamp ∧ skew a.now timestamp ≤ tol

/-- What one verification does: nothing to the nonces, or one claim; and what
it has checked when it accepts. -/
theorem verifySignature_cases (runtime : Runtime) (kind : NonceStoreKind) (tol : Nat)
    (seen : NonceStore) (a : Arrival) :
    ((∃ e, (verifySignature runtime kind tol seen a).1 = .error e) ∧
      (verifySignature runtime kind tol seen a).2 = seen) ∨
    ∃ r, Claimed seen a.claimedAt (composite kind a.key.id a.input.nonce) (tol * 2) r
        (verifySignature runtime kind tol seen a).2 ∧
      ((verifySignature runtime kind tol seen a).1 = .ok () → r = .ok true ∧ InWindow runtime tol a ∧
        ∃ secret, a.key.signingSecret = some secret ∧
          provided a.input = buildSignature runtime secret a.input.toCanonicalRequest) := by
  unfold verifySignature
  cases hs : a.key.signingSecret.filter (· ≠ "") with
  | none => exact .inl ⟨⟨_, rfl⟩, rfl⟩
  | some secret =>
    have hsecret : a.key.signingSecret = some secret := (Option.filter_eq_some_iff.mp hs).1
    cases hn : runtime.number a.input.timestamp with
    | none => exact .inl ⟨⟨_, rfl⟩, rfl⟩
    | some timestamp =>
      dsimp only
      split
      · exact .inl ⟨⟨_, rfl⟩, rfl⟩
      · next hskew =>
        have hwindow : InWindow runtime tol a := ⟨timestamp, hn, not_lt.mp hskew⟩
        split
        · exact .inl ⟨⟨_, rfl⟩, rfl⟩
        · have hclaim := claim_claimed seen a.claimedAt kind a.key.id a.input.nonce (tol * 2)
          refine .inr ⟨(claim kind seen a.claimedAt a.key.id a.input.nonce (tol * 2)).1, ?_⟩
          cases hc : claim kind seen a.claimedAt a.key.id a.input.nonce (tol * 2) with
          | mk r seen' =>
            rw [hc] at hclaim
            obtain e | fresh := r
            · exact ⟨hclaim, fun h => by cases h⟩
            · cases fresh with
              | false => exact ⟨hclaim, fun h => by cases h⟩
              | true =>
                dsimp only
                split
                · next hsigned => exact ⟨hclaim, fun _ => ⟨rfl, hwindow, secret, hsecret, hsigned⟩⟩
                · exact ⟨hclaim, fun h => by cases h⟩

/-- The verifier between two requests: the stored nonces, what it has accepted,
newest first, and the clock. -/
structure Verifier where
  seen : NonceStore
  accepted : List Arrival
  clock : Int

def Verifier.next (runtime : Runtime) (kind : NonceStoreKind) (tol : Nat) (s : Verifier) (a : Arrival) :
    Verifier :=
  match verifySignature runtime kind tol s.seen a with
  | (.ok _, seen) => ⟨seen, a :: s.accepted, a.claimedAt⟩
  | (.error _, seen) => ⟨seen, s.accepted, a.claimedAt⟩

/-- A request arrives, by a clock that does not run backwards. -/
def Next (runtime : Runtime) (kind : NonceStoreKind) (tol : Nat) (ok : Verifier → Arrival → Prop)
    (s s' : Verifier) : Prop :=
  ∃ a, s.clock ≤ a.now ∧ a.now ≤ a.claimedAt ∧ ok s a ∧ s' = s.next runtime kind tol a

/-- The same request under the same key. -/
def SameRequest (a b : Arrival) : Prop :=
  a.key.id = b.key.id ∧ a.input.toCanonicalRequest = b.input.toCanonicalRequest

/-- No request is accepted twice, and no signature for two requests. -/
structure AcceptedOnce (s : Verifier) : Prop where
  requests : s.accepted.Pairwise fun a b => ¬ SameRequest a b
  signatures : ∀ a ∈ s.accepted, ∀ b ∈ s.accepted, a.key = b.key → provided a.input = provided b.input →
    a.input.toCanonicalRequest = b.input.toCanonicalRequest

/-- The fields are those of a well formed request, and a request that was
accepted before comes back while its nonce is remembered, or outside its window. -/
structure Timely (runtime : Runtime) (tol : Nat) (s : Verifier) (a : Arrival) : Prop where
  wellFormed : WellFormed a.input.toCanonicalRequest
  remembered : ∀ b ∈ s.accepted, SameRequest a b →
    a.claimedAt < b.claimedAt + tol * 2 * 1000 ∨ ¬ InWindow runtime tol a

/-- What the verifier knows of what it has accepted. -/
structure Remembers (runtime : Runtime) (kind : NonceStoreKind) (tol : Nat) (s : Verifier) : Prop where
  nonce : ∀ b ∈ s.accepted, s.clock < b.claimedAt + tol * 2 * 1000 → ∃ expiry,
    s.seen.get (composite kind b.key.id b.input.nonce) = some expiry ∧
      b.claimedAt + tol * 2 * 1000 ≤ expiry
  wellFormed : ∀ b ∈ s.accepted, WellFormed b.input.toCanonicalRequest
  signed : ∀ b ∈ s.accepted, ∃ secret, b.key.signingSecret = some secret ∧
    provided b.input = buildSignature runtime secret b.input.toCanonicalRequest
  once : s.accepted.Pairwise fun a b => ¬ SameRequest a b

theorem Remembers.claimed {s : Verifier} {a : Arrival} {r : Except Thrown Bool} {seen' : NonceStore}
    (h : Remembers runtime kind tol s) (hclock : s.clock ≤ a.claimedAt)
    (hc : Claimed s.seen a.claimedAt (composite kind a.key.id a.input.nonce) (tol * 2) r seen') :
    Remembers runtime kind tol ⟨seen', s.accepted, a.claimedAt⟩ where
  nonce b hb hlive := by
    obtain ⟨expiry, hget, hle⟩ := h.nonce b hb (Int.lt_of_le_of_lt hclock hlive)
    obtain ⟨later, hget', hle'⟩ := hc.keeps _ _ hget (Int.lt_of_lt_of_le hlive hle)
    exact ⟨later, hget', Int.le_trans hle hle'⟩
  wellFormed := h.wellFormed
  signed := h.signed
  once := h.once

theorem Remembers.waited {s : Verifier} {now : Int} (h : Remembers runtime kind tol s)
    (hclock : s.clock ≤ now) :
    Remembers runtime kind tol ⟨s.seen, s.accepted, now⟩ :=
  ⟨fun b hb hlive => h.nonce b hb (Int.lt_of_le_of_lt hclock hlive), h.wellFormed, h.signed, h.once⟩

/-- An accepted request is none of those accepted before. -/
theorem Remembers.fresh {s : Verifier} {a b : Arrival} {r : Except Thrown Bool} {seen' : NonceStore}
    (h : Remembers runtime kind tol s) (ht : Timely runtime tol s a) (hclock : s.clock ≤ a.claimedAt)
    (hc : Claimed s.seen a.claimedAt (composite kind a.key.id a.input.nonce) (tol * 2) r seen')
    (hr : r = .ok true) (hwindow : InWindow runtime tol a) (hb : b ∈ s.accepted) : ¬ SameRequest a b := by
  intro hsame
  obtain hlive | hout := ht.remembered b hb hsame
  · obtain ⟨expiry, hget, hle⟩ := h.nonce b hb (Int.lt_of_le_of_lt hclock hlive)
    have hnonce : b.input.nonce = a.input.nonce := (congrArg CanonicalRequest.nonce hsame.2).symm
    rw [← hsame.1, hnonce] at hget
    have hexpired := (hc.fresh hr).2 expiry hget
    omega
  · exact hout hwindow

theorem Remembers.next {s : Verifier} {a : Arrival} (h : Remembers runtime kind tol s)
    (hnow : s.clock ≤ a.now) (hclaimed : a.now ≤ a.claimedAt) (ht : Timely runtime tol s a) :
    Remembers runtime kind tol (s.next runtime kind tol a) := by
  have hclock : s.clock ≤ a.claimedAt := Int.le_trans hnow hclaimed
  have hcases := verifySignature_cases runtime kind tol s.seen a
  unfold Verifier.next
  cases hv : verifySignature runtime kind tol s.seen a with
  | mk r seen' =>
    rw [hv] at hcases
    obtain ⟨⟨e, he⟩, hseen⟩ | ⟨claimed, hc, hok⟩ := hcases
    · dsimp only at he hseen
      rw [he, hseen]
      exact h.waited hclock
    · cases r with
      | error e => exact h.claimed hclock hc
      | ok u =>
        obtain ⟨hr, hwindow, secret, hsecret, hsigned⟩ := hok rfl
        have hkept := h.claimed hclock hc
        refine ⟨fun b hb hlive => ?_, fun b hb => ?_, fun b hb => ?_,
          List.pairwise_cons.mpr ⟨fun b hb => ?_, h.once⟩⟩
        · obtain rfl | hb := List.mem_cons.mp hb
          · refine ⟨_, (hc.fresh hr).1, ?_⟩
            push_cast
            omega
          · exact hkept.nonce b hb hlive
        · obtain rfl | hb := List.mem_cons.mp hb
          · exact ht.wellFormed
          · exact h.wellFormed b hb
        · obtain rfl | hb := List.mem_cons.mp hb
          · exact ⟨secret, hsecret, hsigned⟩
          · exact h.signed b hb
        · exact h.fresh ht hclock hc hr hwindow hb

theorem Remembers.acceptedOnce {s : Verifier} (h : Remembers runtime kind tol s)
    (hsha : Function.Injective runtime.sha256) (hhmac : ∀ secret, Function.Injective (runtime.hmac secret)) :
    AcceptedOnce s where
  requests := h.once
  signatures a ha b hb hkey hsame := by
    obtain ⟨secret, hs, hsigned⟩ := h.signed a ha
    obtain ⟨secret', hs', hsigned'⟩ := h.signed b hb
    have hsecret : secret = secret' := by
      rw [hkey, hs', Option.some.injEq] at hs
      exact hs.symm
    rw [hsigned, hsigned', ← hsecret] at hsame
    exact canonicalSignatureString_injective hsha (h.wellFormed a ha) (h.wellFormed b hb)
      (hhmac secret hsame)

/-- In every run whose requests are timely, a request is accepted at most once
and a signature serves one request. -/
theorem signed_request_accepted_once {s : Verifier} {clock : Int}
    (hsha : Function.Injective runtime.sha256) (hhmac : ∀ secret, Function.Injective (runtime.hmac secret))
    (h : Relation.ReflTransGen (Next runtime kind tol (Timely runtime tol)) ⟨.empty, [], clock⟩ s) :
    AcceptedOnce s := by
  have hr : Remembers runtime kind tol s := by
    induction h with
    | refl => exact ⟨by simp, by simp, by simp, .nil⟩
    | tail _ hstep ih =>
      obtain ⟨a, hnow, hclaimed, ht, rfl⟩ := hstep
      exact ih.next hnow hclaimed ht
  exact hr.acceptedOnce hsha hhmac

/-- When each request reads the clock once, a nonce is forgotten inside the
window only from the first second of the window to its last. -/
theorem forgotten_at_the_edges {a b : Arrival} {timestamp : ℚ} (ha : skew a.now timestamp ≤ tol)
    (hb : skew b.now timestamp ≤ tol) (hforgotten : b.now + tol * 2 * 1000 ≤ a.now) :
    ((b.now / 1000 : Int) : ℚ) = timestamp - tol ∧ ((a.now / 1000 : Int) : ℚ) = timestamp + tol := by
  have hdiv : b.now / 1000 + tol * 2 ≤ a.now / 1000 := by omega
  have hcast : ((b.now / 1000 : Int) : ℚ) + tol * 2 ≤ ((a.now / 1000 : Int) : ℚ) := by exact_mod_cast hdiv
  have hlow := (abs_le.mp hb).1
  have hhigh := (abs_le.mp ha).2
  constructor <;> linarith

section Sample

def sampleRuntime : Runtime :=
  ⟨id, fun secret text => secret ++ text, fun text => if text = "1000" then some 1000 else none⟩

def sampleRequest : CanonicalRequest :=
  ⟨"POST", "/v1/pix/transfers", "body", "1000", "0123456789abcdef"⟩

/-- The signed request as it arrives at an instant. -/
def sampleArrival (now : Int) : Arrival :=
  ⟨⟨"key_1", some "secret"⟩, ⟨sampleRequest, buildSignature sampleRuntime "secret" sampleRequest⟩, now, now⟩

/-- The verifier after the request arrives at two instants. -/
def sampleReplay (first second : Int) : Verifier :=
  ((⟨.empty, [], 0⟩ : Verifier).next sampleRuntime .redis 300 (sampleArrival first)).next sampleRuntime .redis
    300 (sampleArrival second)

theorem sampleHmac_injective (secret : String) : Function.Injective (sampleRuntime.hmac secret) := by
  intro a b h
  have hlist : secret.toList ++ a.toList = secret.toList ++ b.toList := by
    simpa [sampleRuntime] using congrArg String.toList h
  exact String.toList_injective (List.append_cancel_left hlist)

theorem sampleRequest_wellFormed : WellFormed sampleRequest :=
  ⟨by decide, by decide, by decide, by decide, by decide +kernel⟩

theorem signed_request_accepted_once_within : (sampleReplay 700000 800000).accepted.length = 1 ∧
    AcceptedOnce (sampleReplay 700000 800000) := by
  have hfirst : ((⟨.empty, [], 0⟩ : Verifier).next sampleRuntime .redis 300 (sampleArrival 700000)).accepted =
    [sampleArrival 700000] := by decide +kernel
  have hrun : Relation.ReflTransGen (Next sampleRuntime .redis 300 (Timely sampleRuntime 300))
      ⟨.empty, [], 0⟩ (sampleReplay 700000 800000) := by
    refine .tail (.single ⟨sampleArrival 700000, by decide, by decide,
      ⟨sampleRequest_wellFormed, by simp⟩, rfl⟩) ⟨sampleArrival 800000, ?_, by decide,
      ⟨sampleRequest_wellFormed, fun b hb _ => .inl ?_⟩, rfl⟩
    · decide +kernel
    · rw [hfirst, List.mem_singleton] at hb
      rw [hb]
      decide
  exact ⟨by decide +kernel,
    signed_request_accepted_once Function.injective_id sampleHmac_injective hrun⟩

/-- A request of the first second of its window comes back in the last one. -/
theorem replay_in_last_second_accepted :
    ¬ ∀ (runtime : Runtime) (kind : NonceStoreKind) (tol : Nat) (clock : Int) (s : Verifier),
      Function.Injective runtime.sha256 → (∀ secret, Function.Injective (runtime.hmac secret)) →
      Relation.ReflTransGen (Next runtime kind tol fun _ _ => True) ⟨.empty, [], clock⟩ s →
      AcceptedOnce s := by
  intro h
  have hreplay : (sampleReplay 700000 1300000).accepted = [sampleArrival 1300000, sampleArrival 700000] := by
    decide +kernel
  have honce := h sampleRuntime .redis 300 0 (sampleReplay 700000 1300000) Function.injective_id
    sampleHmac_injective (.tail (.single ⟨sampleArrival 700000, by decide, by decide, trivial, rfl⟩)
      ⟨sampleArrival 1300000, by decide +kernel, by decide, trivial, rfl⟩)
  have hpair := honce.requests
  rw [hreplay, List.pairwise_cons] at hpair
  exact hpair.1 _ (List.mem_singleton_self _) ⟨rfl, rfl⟩

end Sample

end BaasConnector.Auth.Replay
