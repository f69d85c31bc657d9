import BaasConnector.Lib.History
import BaasConnector.Lib.Keyed

namespace BaasConnector.Worker.EndpointSecrets

open BaasConnector.Lib.History BaasConnector.Lib.Keyed

/-- An endpoint with its sealed secrets, as it is stored from one write to the next. -/
structure SecretRecord (S : Type) where
  id : String
  secret : S
  previousSecret : Option S
  previousSecretExpiresAt : Option Int
  updatedAt : Int

/-- What was ever stored of the endpoints. Every write changes `updatedAt`. -/
structure Rotations (S : Type) where
  records : List (SecretRecord S)
  versioned : ∀ a ∈ records, ∀ b ∈ records, a.id = b.id → a.updatedAt = b.updatedAt → a = b

structure Cached where
  secrets : List String
  version : Int
  expiresAtMs : Int
deriving DecidableEq, Repr

def ttlMs : Int := 60000

variable {S : Type} (decryptToString : S → String)

/-- The previous secret of the record that is still valid. -/
def previousWithin (record : SecretRecord S) (now : Int) : Option S :=
  match record.previousSecret, record.previousSecretExpiresAt with
  | some previous, some expiresAt => if now < expiresAt then some previous else none
  | _, _ => none

def decryptSecrets (record : SecretRecord S) (now : Int) : List String :=
  decryptToString record.secret :: ((previousWithin record now).map decryptToString).toList

/-- A call of `for` that waits for its secrets to be decrypted. -/
structure Waiting (h : Rotations S) where
  record : {r // r ∈ h.records}
  now : Int

structure Returned (h : Rotations S) extends Waiting h where
  secrets : List String

structure State (h : Rotations S) where
  cache : Table String Cached
  waiting : List (Waiting h)
  returned : List (Returned h)

def State.initial (h : Rotations S) : State h := ⟨.empty, [], []⟩

/-- The entry of the cache that the call may use. -/
def hit (cache : Table String Cached) (record : SecretRecord S) (now : Int) : Option Cached :=
  (cache.get record.id).filter fun cached => decide (cached.version = record.updatedAt ∧
    now < cached.expiresAtMs)

inductive Action (h : Rotations S)
  | call (record : {r // r ∈ h.records}) (now : Int)
  | decrypted (index : Nat)
  | decryptFailed (index : Nat)

variable {h : Rotations S}

def step (s : State h) : Action h → State h
  | .call record now =>
    match hit s.cache record.val now with
    | some cached => { s with returned := s.returned ++ [⟨⟨record, now⟩, cached.secrets⟩] }
    | none => { s with waiting := s.waiting ++ [⟨record, now⟩] }
  | .decrypted index =>
    match s.waiting[index]? with
    | some w =>
      let secrets := decryptSecrets decryptToString w.record.val w.now
      { cache := s.cache.set w.record.val.id ⟨secrets, w.record.val.updatedAt, w.now + ttlMs⟩
        waiting := s.waiting.eraseIdx index
        returned := s.returned ++ [⟨w, secrets⟩] }
    | none => s
  | .decryptFailed index => { s with waiting := s.waiting.eraseIdx index }

def run (actions : List (Action h)) : State h := actions.foldl (step decryptToString) (.initial h)

/-- The current secret, and the previous one while it is valid. -/
def Returned.Right (r : Returned h) : Prop := r.secrets = decryptSecrets decryptToString r.record.val r.now

/-- A call that the cache answers comes on the same side of the previous
secret's end as the call that filled the cache. -/
def SameSide (before : List (Action h)) : Action h → Prop
  | .call record now => ∀ cached, hit (run decryptToString before).cache record.val now = some cached →
      (previousWithin record.val (cached.expiresAtMs - ttlMs)).isSome = (previousWithin record.val now).isSome
  | _ => True

/-- An entry of the cache is what its record's secrets were when it was made. -/
def Faithful (cache : Table String Cached) : Prop :=
  ∀ id cached, cache.get id = some cached → ∃ record : {r // r ∈ h.records}, record.val.id = id ∧
    cached.version = record.val.updatedAt ∧
    cached.secrets = decryptSecrets decryptToString record.val (cached.expiresAtMs - ttlMs)

variable {decryptToString}

theorem previousWithin_eq {record : SecretRecord S} {t t' : Int}
    (hsame : (previousWithin record t).isSome = (previousWithin record t').isSome) :
    previousWithin record t = previousWithin record t' := by
  revert hsame
  unfold previousWithin
  split
  · split_ifs <;> simp
  · intro _
    rfl

/-- The answers at two instants are the same when the previous secret is valid at
both or at none of them. -/
theorem decryptSecrets_eq_iff {record : SecretRecord S} {t t' : Int} :
    decryptSecrets decryptToString record t = decryptSecrets decryptToString record t' ↔
      (previousWithin record t).isSome = (previousWithin record t').isSome := by
  constructor
  · intro heq
    have hlength := congrArg List.length heq
    simp only [decryptSecrets, List.length_cons, Option.length_toList, Option.isSome_map] at hlength
    cases hp : previousWithin record t <;> cases hp' : previousWithin record t' <;> simp_all
  · intro hsame
    rw [decryptSecrets, decryptSecrets, previousWithin_eq hsame]

theorem hit_some {cache : Table String Cached} {record : SecretRecord S} {now : Int} {cached : Cached}
    (hhit : hit cache record now = some cached) :
    cache.get record.id = some cached ∧ cached.version = record.updatedAt := by
  rw [hit, Option.filter_eq_some_iff, decide_eq_true_eq] at hhit
  exact ⟨hhit.1, hhit.2.1⟩

/-- The version tells which record of the endpoint an entry was made of. -/
theorem Faithful.secrets {cache : Table String Cached} (hc : Faithful (h := h) decryptToString cache)
    {record : {r // r ∈ h.records}} {now : Int} {cached : Cached}
      (hhit : hit cache record.val now = some cached) :
    cached.secrets = decryptSecrets decryptToString record.val (cached.expiresAtMs - ttlMs) := by
  obtain ⟨hget, hversion⟩ := hit_some hhit
  obtain ⟨made, hid, hmade, hsecrets⟩ := hc _ _ hget
  have heq := h.versioned _ made.property _ record.property hid (hmade.symm.trans hversion)
  rw [hsecrets, heq]

theorem Faithful.set {cache : Table String Cached}
    (hc : Faithful (h := h) decryptToString cache) (w : Waiting h) :
    Faithful (h := h) decryptToString (cache.set w.record.val.id
      ⟨decryptSecrets decryptToString w.record.val w.now, w.record.val.updatedAt, w.now + ttlMs⟩) := by
  intro id cached hget
  rw [Table.get_set] at hget
  split at hget
  · next hid =>
    obtain rfl := Option.some.inj hget
    exact ⟨w.record, hid.symm, rfl, by rw [Int.add_sub_cancel]⟩
  · exact hc id cached hget

theorem run_append (actions : List (Action h)) (last : Action h) :
    run decryptToString (actions ++ [last]) = step decryptToString (run decryptToString actions) last := by
  rw [run, List.foldl_append]
  rfl

theorem run_faithful (actions : List (Action h)) :
    Faithful (h := h) decryptToString (run decryptToString actions).cache := by
  induction actions using List.reverseRecOn with
  | nil =>
    intro id cached hget
    cases hget
  | append_singleton actions last ih =>
    rw [run_append]
    cases last with
    | call record now =>
      rw [step]
      split <;> exact ih
    | decrypted index =>
      rw [step]
      split
      · next w _ => exact ih.set w
      · exact ih
    | decryptFailed index => exact ih

/-- A step hands out right secrets only, exactly when it is no call across the
end of the previous secret. -/
theorem step_right (actions : List (Action h)) (last : Action h) :
    (∀ r ∈ (run decryptToString (actions ++ [last])).returned, r.Right decryptToString) ↔
      (∀ r ∈ (run decryptToString actions).returned, r.Right decryptToString) ∧
        SameSide decryptToString actions last := by
  rw [run_append]
  cases last with
  | call record now =>
    rw [step, SameSide]
    split
    · next cached hhit =>
      simp only [hhit, List.forall_mem_append, List.forall_mem_singleton, Option.some.injEq, forall_eq']
      rw [Returned.Right, (run_faithful actions).secrets hhit, decryptSecrets_eq_iff]
    · next hmiss => simp [hmiss]
  | decrypted index =>
    refine Iff.trans ?_ (and_true _).symm.to_iff
    rw [step]
    split
    · simp only [List.forall_mem_append, List.forall_mem_singleton, Returned.Right, and_true]
    · rfl
  | decryptFailed index => exact (and_true _).symm.to_iff

/-- In every run the secrets that calls return are those of their record at their
instant, exactly when no call is answered from the other side of the previous
secret's end. -/
theorem secrets_follow_rotation_iff (actions : List (Action h)) :
    (∀ r ∈ (run decryptToString actions).returned,
      r.secrets = decryptSecrets decryptToString r.record.val r.now) ↔
      Always (SameSide decryptToString) actions := by
  induction actions using List.reverseRecOn with
  | nil => exact iff_of_true (fun r hr => nomatch hr) always_nil
  | append_singleton actions last ih =>
    rw [always_append, ← ih]
    exact step_right actions last

section Sample

def rotated : SecretRecord String := ⟨"whe_1", "new", some "old", some 1000, 0⟩

def sampleRotations : Rotations String :=
  ⟨[rotated], fun _ ha _ hb _ _ => (List.mem_singleton.mp ha).trans (List.mem_singleton.mp hb).symm⟩

def sampleRecord : {r // r ∈ sampleRotations.records} := ⟨rotated, List.mem_singleton.mpr rfl⟩

/-- The previous secret is handed out at the instant of its end, from a cache
filled before. -/
theorem expired_secret_returned :
    ∃ actions : List (Action sampleRotations), ∃ r ∈ (run id actions).returned,
      r.record.val.previousSecretExpiresAt = some r.now ∧ r.secrets = ["new", "old"] :=
  ⟨[.call sampleRecord 0, .decrypted 0, .call sampleRecord 1000], ⟨⟨sampleRecord, 1000⟩, ["new", "old"]⟩,
    List.mem_cons_of_mem _ (List.mem_cons_self ..), rfl, rfl⟩

end Sample

end BaasConnector.Worker.EndpointSecrets
