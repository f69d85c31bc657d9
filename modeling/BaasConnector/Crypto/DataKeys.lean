import BaasConnector.Lib.Numerals
import BaasConnector.Crypto.CredentialResolver
import BaasConnector.Lib.History
import BaasConnector.Lib.Separators

namespace BaasConnector.Crypto.DataKeys

open BaasConnector.Lib.Decimals BaasConnector.Lib.History BaasConnector.Lib.Keyed BaasConnector.Lib.Separators
open BaasConnector.Crypto.CredentialResolver BaasConnector.Crypto.CredentialResolver.State

def tag : Secret → List Char
  | .credentials => ['c', 'o', 'n', 'n']
  | .webhookSecret => ['w', 'h', 's', 'e', 'c']

theorem tag_without_colon (secret : Secret) : ':' ∉ tag secret := by
  cases secret with
  | credentials => decide
  | webhookSecret => decide

theorem cacheKey_toList (secret : Secret) (id : ConnectionId) :
    (secret.cacheKey id).toList = tag secret ++ ':' :: id.text.toList := by
  cases secret with
  | credentials => simp [Secret.cacheKey, tag]
  | webhookSecret => simp [Secret.cacheKey, tag]

theorem versioned_toList (secret : Secret) (id : ConnectionId) (version : Nat) :
    (versioned (secret.cacheKey id) version).toList =
      tag secret ++ ':' :: (id.text.toList ++ ':' :: 'v' :: Nat.toDigits 10 version) := by
  simp [versioned, Nat.toString_eq_repr, Nat.toList_repr, cacheKey_toList]

/-- The key of a data key tells the secret, the connection and the version. -/
theorem versioned_inj {secret secret' : Secret} {id id' : ConnectionId} {version version' : Nat}
    (h : versioned (secret.cacheKey id) version = versioned (secret'.cacheKey id') version') :
    secret = secret' ∧ id = id' ∧ version = version' := by
  have hlist := congrArg String.toList h
  rw [versioned_toList, versioned_toList] at hlist
  obtain ⟨htag, hlist⟩ := split_at_separator (tag_without_colon _) (tag_without_colon _) hlist
  obtain ⟨hid, hlist⟩ := split_at_separator id.minted id'.minted hlist
  refine ⟨?_, ?_, digits_inj.1 (List.cons.inj hlist).2⟩
  · cases secret <;> cases secret' <;> first | rfl | exact absurd htag (by decide)
  · obtain ⟨text, _⟩ := id
    obtain ⟨text', _⟩ := id'
    obtain rfl : text = text' := String.toList_inj.1 hid
    rfl

/-- What is invalidated is the key of no data key. -/
theorem cacheKey_ne_versioned (secret secret' : Secret) (id id' : ConnectionId) (version : Nat) :
    secret.cacheKey id ≠ versioned (secret'.cacheKey id') version := by
  intro h
  have hlist := congrArg String.toList h
  rw [cacheKey_toList, versioned_toList] at hlist
  obtain ⟨-, hlist⟩ := split_at_separator (tag_without_colon _) (tag_without_colon _) hlist
  apply id.minted
  rw [hlist]
  simp

variable {W S K P : Type} (cipher : Cipher W S K P) (cacheTtlMs : Int)

/-- What the resolver promises of one step: a key that is used is the envelope's own, the
envelope gives back its text, and what was invalidated is unwrapped again. -/
structure Sound (s : State W S K P) (action : Action W S) : Prop where
  keyed : ∀ i call envelope buffer, action = .decipher i → s.calls[i]? = some call →
    call.stage = .deciphering envelope buffer → s.buffers[buffer]? = some (cipher.unwrap envelope.wrappedKey)
  own : ∀ i call envelope buffer plaintext, action = .decipher i → s.calls[i]? = some call →
    call.stage = .deciphering envelope buffer →
    cipher.decipher (cipher.unwrap envelope.wrappedKey) envelope.text = some plaintext →
      (step cipher cacheTtlMs s action).calls[i]? =
        some { call with stage := .opened envelope.version plaintext }
  renewed : ∀ i now call envelope, action = .proceed i now → s.calls[i]? = some call →
    s.next call now = .decrypts envelope → call.connection ∈ s.due →
      (step cipher cacheTtlMs s action).calls[i]? = some { call with stage := .unwrapping envelope }

/-- A condition for a step to go right: credentials change with their version only, and a cached
data key is used for the webhook secret only that it was unwrapped for, and never first after
an invalidation. -/
def Orderly (s : State W S K P) : Action W S → Prop
  | .store id row => ∀ old, (id, old) ∈ s.stored → old.credentials.version = row.credentials.version →
    old.credentials.wrappedKey = row.credentials.wrappedKey
  | .proceed i now => ∀ call envelope cached, s.calls[i]? = some call → s.next call now = .decrypts envelope →
    s.hit call envelope.version now = some cached →
      (call.secret = .webhookSecret → cached.source = envelope.wrappedKey) ∧ call.connection ∉ s.due
  | _ => True

/-- Credentials that are decrypted were stored. -/
def FromStore (s : State W S K P) (call : Call W S P) (envelope : EncryptedEnvelope W S) : Prop :=
  call.secret = .credentials → ∃ row, (call.connection, row) ∈ s.stored ∧ row.credentials = envelope

def Good (s : State W S K P) (call : Call W S P) : Prop :=
  match call.stage with
  | .found row => ∀ stored ∈ row, (call.connection, stored) ∈ s.stored
  | .unwrapping envelope => FromStore s call envelope
  | .deciphering envelope buffer => s.buffers[buffer]? = some (cipher.unwrap envelope.wrappedKey)
  | _ => True

/-- A cached data key lies in its buffer, under the name of what it was unwrapped for. -/
structure GoodKey (s : State W S K P) (name : String) (cached : CachedKey W) : Prop where
  buffered : s.buffers[cached.buffer]? = some (cipher.unwrap cached.source)
  named : ∃ (secret : Secret) (id : ConnectionId) (version : Nat), name =
    versioned (secret.cacheKey id) version ∧
    (secret = .credentials → ∃ row, (id, row) ∈ s.stored ∧ row.credentials.version = version ∧
      row.credentials.wrappedKey = cached.source)

structure Inv (s : State W S K P) : Prop where
  versions : ∀ id row row', (id, row) ∈ s.stored → (id, row') ∈ s.stored →
    row.credentials.version = row'.credentials.version → row.credentials.wrappedKey =
      row'.credentials.wrappedKey
  keys : ∀ name cached, s.keys.get name = some cached → GoodKey cipher s name cached
  calls : ∀ (i : Nat) call, s.calls[i]? = some call → Good cipher s call

variable {cipher} {cacheTtlMs} {s s' : State W S K P} {i : Nat} {call : Call W S P} {now : Int}

theorem Good.mono (h : Good cipher s call) (hstored : ∀ row ∈ s.stored, row ∈ s'.stored)
    (hbuffers : ∀ (buffer : Nat) key, s.buffers[buffer]? = some key → s'.buffers[buffer]? = some key) :
    Good cipher s' call := by
  unfold Good at h ⊢
  split
  · next row hstage =>
    rw [hstage] at h
    exact fun stored hrow => hstored _ (h stored hrow)
  · next envelope hstage =>
    rw [hstage] at h
    intro hsecret
    obtain ⟨row, hrow, henvelope⟩ := h hsecret
    exact ⟨row, hstored _ hrow, henvelope⟩
  · next envelope buffer hstage =>
    rw [hstage] at h
    exact hbuffers _ _ h
  · trivial

theorem GoodKey.mono {name : String} {cached : CachedKey W} (h : GoodKey cipher s name cached)
    (hstored : ∀ row ∈ s.stored, row ∈ s'.stored)
    (hbuffers : ∀ (buffer : Nat) key, s.buffers[buffer]? = some key → s'.buffers[buffer]? = some key) :
    GoodKey cipher s' name cached := by
  obtain ⟨secret, id, version, hname, hrow⟩ := h.named
  refine ⟨hbuffers _ _ h.buffered, secret, id, version, hname, fun hsecret => ?_⟩
  obtain ⟨row, hmem, hversion⟩ := hrow hsecret
  exact ⟨row, hstored _ hmem, hversion⟩

/-- One call goes on. -/
theorem Inv.move (h : Inv cipher s) {stage : Stage W S P}
    (hgood : Good cipher s { call with stage := stage }) :
    Inv cipher (s.move i call stage) where
  versions := h.versions
  keys := fun name cached hget => (h.keys name cached hget).mono (fun _ hrow => hrow) fun _ _ hkey => hkey
  calls := by
    intro j other hother
    have hgood' : Good cipher s other := by
      rw [State.move, List.getElem?_set] at hother
      split at hother
      · split at hother
        · cases hother
          exact hgood
        · cases hother
      · exact h.calls j other hother
    exact hgood'.mono (fun _ hrow => hrow) fun _ _ hkey => hkey

theorem Inv.store (h : Inv cipher s) {id : ConnectionId} {row : StoredConnection W S}
    (horderly : Orderly s (.store id row)) : Inv cipher { s with stored := (id, row) :: s.stored } where
  versions := by
    intro id' a b ha hb hversion
    obtain ha | ha := List.mem_cons.1 ha
    · cases ha
      obtain hb | hb := List.mem_cons.1 hb
      · cases hb
        rfl
      · exact (horderly b hb hversion.symm).symm
    · obtain hb | hb := List.mem_cons.1 hb
      · cases hb
        exact horderly a ha hversion
      · exact h.versions id' a b ha hb hversion
  keys := fun name cached hget =>
    (h.keys name cached hget).mono (fun _ hrow => List.mem_cons_of_mem _ hrow) fun _ _ hkey => hkey
  calls := fun j other hother =>
    (h.calls j other hother).mono (fun _ hrow => List.mem_cons_of_mem _ hrow) fun _ _ hkey => hkey

theorem mem_of_lookup {id : ConnectionId} {row : StoredConnection W S}
    {rows : List (ConnectionId × StoredConnection W S)}
    (h : lookup id rows = some row) : (id, row) ∈ rows := by
  induction rows with
  | nil => cases h
  | cons first rows ih =>
    rw [lookup] at h
    split at h
    · next hid =>
      cases h
      rw [← hid]
      exact List.mem_cons_self ..
    · exact List.mem_cons_of_mem _ (ih h)

theorem Inv.find (h : Inv cipher s) (id : ConnectionId) (secret : Secret) :
    Inv cipher { s with calls := s.calls ++ [⟨id, secret, .found (lookup id s.stored)⟩] } where
  versions := h.versions
  keys := fun name cached hget => (h.keys name cached hget).mono (fun _ hrow => hrow) fun _ _ hkey => hkey
  calls := by
    intro j other hother
    have hgood : Good cipher s other := by
      rw [List.getElem?_append] at hother
      split at hother
      · exact h.calls j other hother
      · obtain rfl := List.mem_singleton.1 (List.mem_of_getElem? hother)
        exact fun stored hrow => mem_of_lookup hrow
    exact hgood.mono (fun _ hrow => hrow) fun _ _ hkey => hkey

/-- The values of the resolver and what is due do not matter. -/
theorem Inv.congr (h : Inv cipher s) (hstored : s'.stored = s.stored) (hkeys : s'.keys = s.keys)
    (hbuffers : s'.buffers = s.buffers) (hcalls : s'.calls = s.calls) : Inv cipher s' where
  versions := by
    rw [hstored]
    exact h.versions
  keys := by
    intro name cached hget
    rw [hkeys] at hget
    exact (h.keys name cached hget).mono (by rw [hstored]; exact fun _ hrow => hrow)
      (by rw [hbuffers]; exact fun _ _ hkey => hkey)
  calls := by
    intro j other hother
    rw [hcalls] at hother
    exact (h.calls j other hother).mono (by rw [hstored]; exact fun _ hrow => hrow)
      (by rw [hbuffers]; exact fun _ _ hkey => hkey)

theorem fromStore_of_next (h : Good cipher s call) {envelope : EncryptedEnvelope W S}
    (hnext : s.next call now = .decrypts envelope) : FromStore s call envelope := by
  obtain ⟨id, secret, stage⟩ := call
  intro hsecret
  obtain rfl : secret = .credentials := hsecret
  cases stage with
  | found row =>
    cases row with
    | none => cases hnext
    | some stored =>
      simp only [State.next, resolveNext] at hnext
      split at hnext
      · cases hnext
      · split at hnext
        · cases hnext
        · cases hnext
          exact ⟨stored, h stored rfl, rfl⟩
  | _ => cases hnext

/-- A data key that the cache gives is the envelope's own. -/
theorem hit_own (h : Inv cipher s) {envelope : EncryptedEnvelope W S} {cached : CachedKey W}
    (hstore : FromStore s call envelope) (hhit : s.hit call envelope.version now = some cached)
    (hwebhook : call.secret = .webhookSecret → cached.source = envelope.wrappedKey) :
    s.buffers[cached.buffer]? = some (cipher.unwrap envelope.wrappedKey) := by
  rw [State.hit, Option.filter_eq_some_iff] at hhit
  have hkey := h.keys _ _ hhit.1
  have hsource : cached.source = envelope.wrappedKey := by
    cases hsecret : call.secret with
    | webhookSecret => exact hwebhook hsecret
    | credentials =>
      obtain ⟨secret, id, version, hname, hrow⟩ := hkey.named
      obtain ⟨hsame, hid, hversion⟩ := versioned_inj hname
      obtain ⟨row, hmem, hrowVersion, hsource⟩ := hrow (hsame.symm.trans hsecret)
      obtain ⟨own, hown, henvelope⟩ := hstore hsecret
      rw [← hsource, ← henvelope]
      apply h.versions id row own hmem (hid ▸ hown)
      rw [hrowVersion, ← hversion, henvelope]
  rw [← hsource]
  exact hkey.buffered

theorem Inv.decrypt (h : Inv cipher s) {envelope : EncryptedEnvelope W S} (hstore : FromStore s call envelope)
    (hhit : ∀ cached, s.hit call envelope.version now = some cached →
      call.secret = .webhookSecret → cached.source = envelope.wrappedKey) :
    Inv cipher (s.decrypt i call envelope now) := by
  unfold State.decrypt
  simp only
  split
  · next cached hcached =>
    have hgood : Good cipher s { call with stage := .deciphering envelope cached.buffer } :=
      hit_own h hstore hcached (hhit cached hcached)
    exact (h.move hgood).congr rfl rfl rfl rfl
  · have hgood : Good cipher s { call with stage := .unwrapping envelope } := hstore
    exact (h.move hgood).congr rfl rfl rfl rfl

theorem Inv.proceed (h : Inv cipher s) (hcall : s.calls[i]? = some call)
    (horderly : Orderly s (.proceed i now)) :
    Inv cipher (s.proceed i call now) := by
  unfold State.proceed
  split
  · exact h.move trivial
  · exact h.move trivial
  · next envelope hnext =>
    exact h.decrypt (fromStore_of_next (h.calls i call hcall) hnext) fun cached hhit =>
      (horderly call envelope cached hcall hnext hhit).1

theorem getElem?_append_some {buffers : List K} {key : K} (more : List K) {buffer : Nat}
    (h : buffers[buffer]? = some key) : (buffers ++ more)[buffer]? = some key := by
  rw [List.getElem?_append_left (List.getElem?_eq_some_iff.1 h).1, h]

theorem Inv.unwrapped (h : Inv cipher s) {envelope : EncryptedEnvelope W S}
    (hstore : FromStore s call envelope) :
    Inv cipher (s.unwrapped cipher cacheTtlMs i call envelope now) := by
  have hlast : (s.buffers ++ [cipher.unwrap envelope.wrappedKey])[s.buffers.length]? =
      some (cipher.unwrap envelope.wrappedKey) := by simp
  refine ⟨h.versions, ?_, ?_⟩
  · intro name cached hget
    simp only [State.unwrapped, Table.get_set] at hget
    split at hget
    · next hname =>
      cases hget
      refine ⟨hlast, call.secret, call.connection, envelope.version, hname, fun hsecret => ?_⟩
      obtain ⟨row, hrow, henvelope⟩ := hstore hsecret
      exact ⟨row, hrow, by rw [henvelope], by rw [henvelope]⟩
    · exact (h.keys name cached hget).mono (fun _ hrow => hrow) fun _ _ => getElem?_append_some _
  · intro j other hother
    simp only [State.unwrapped, State.move, List.getElem?_set] at hother
    split at hother
    · split at hother
      · cases hother
        exact hlast
      · cases hother
    · exact (h.calls j other hother).mono (fun _ hrow => hrow) fun _ _ => getElem?_append_some _

theorem Inv.decipher (h : Inv cipher s) (envelope : EncryptedEnvelope W S) (buffer : Nat) :
    Inv cipher (s.decipher cipher i call envelope buffer) := by
  unfold State.decipher
  split
  · exact h.move trivial
  · exact h.move trivial

theorem Inv.finish (h : Inv cipher s) (version : Nat) (plaintext : P) :
    Inv cipher (s.finish i call version plaintext now) := by
  have hmoved : Inv cipher (s.move i call (.answered (some plaintext))) := h.move trivial
  unfold State.finish
  simp only
  split
  · exact hmoved.congr rfl rfl rfl rfl
  · exact hmoved

theorem invalidateKey_eq (h : Inv cipher s) (id : ConnectionId) :
    s.invalidateKey cipher (Secret.credentials.cacheKey id) = s := by
  unfold invalidateKey
  split
  · next cached hget =>
    obtain ⟨secret, id', version, hname, -⟩ := (h.keys _ _ hget).named
    exact absurd hname (cacheKey_ne_versioned _ _ _ _ _)
  · rfl

theorem Inv.invalidate (h : Inv cipher s) (id : ConnectionId) : Inv cipher (s.invalidate cipher id) := by
  unfold State.invalidate
  rw [invalidateKey_eq h]
  exact h.congr rfl rfl rfl rfl

theorem Inv.step (h : Inv cipher s) {action : Action W S} (horderly : Orderly s action) :
    Inv cipher (s.step cipher cacheTtlMs action) := by
  cases action with
  | store id row => exact h.store horderly
  | find id secret => exact h.find id secret
  | proceed i now =>
    unfold State.step
    simp only
    split
    · next hcall => exact h.proceed hcall horderly
    · exact h
  | unwrapped i now =>
    unfold State.step
    simp only
    split
    · next hcall => exact h.unwrapped (h.calls i _ hcall)
    · exact h
  | unwrapFailed i =>
    unfold State.step
    simp only
    split
    · exact h.move trivial
    · exact h
  | decipher i =>
    unfold State.step
    simp only
    split
    · exact h.decipher _ _
    · exact h
  | finish i now =>
    unfold State.step
    simp only
    split
    · exact h.finish _ _
    · exact h
  | invalidate id => exact h.invalidate id

theorem getElem?_move {stage : Stage W S P} {old : Call W S P} (hold : s.calls[i]? = some old) :
    (s.move i call stage).calls[i]? = some { call with stage := stage } := by
  obtain ⟨hlt, -⟩ := List.getElem?_eq_some_iff.1 hold
  rw [State.move, List.getElem?_set_self hlt]

theorem sound_decipher (h : Inv cipher s) (i : Nat) : Sound cipher cacheTtlMs s (.decipher i) := by
  have hkeyed : ∀ (j : Nat) call envelope buffer, s.calls[j]? = some call →
    call.stage = .deciphering envelope buffer →
      s.buffers[buffer]? = some (cipher.unwrap envelope.wrappedKey) := by
    intro j call envelope buffer hcall hstage
    have hgood := h.calls j call hcall
    rwa [Good, hstage] at hgood
  refine ⟨?_, ?_, nofun⟩
  · rintro _ call envelope buffer hact hcall hstage
    cases hact
    exact hkeyed i call envelope buffer hcall hstage
  · rintro _ call envelope buffer plaintext hact hcall hstage hopens
    cases hact
    have hkey := hkeyed i call envelope buffer hcall hstage
    obtain ⟨id, secret, stage⟩ := call
    obtain rfl : stage = _ := hstage
    simp only [State.step, hcall, State.decipher, hkey, Option.bind_some, hopens]
    exact getElem?_move hcall

theorem sound_proceed (i : Nat) (horderly : Orderly s (.proceed i now)) :
    Sound cipher cacheTtlMs s (.proceed i now) := by
  refine ⟨nofun, nofun, ?_⟩
  rintro _ _ call envelope hact hcall hnext hdue
  cases hact
  have hmiss : s.hit call envelope.version now = none := by
    by_contra hne
    obtain ⟨cached, hcached⟩ := Option.ne_none_iff_exists'.1 hne
    exact (horderly call envelope cached hcall hnext hcached).2 hdue
  have hproceed : (s.proceed i call now).calls[i]? = some { call with stage := .unwrapping envelope } := by
    rw [State.proceed, hnext]
    simp only [State.decrypt]
    have hmiss' : State.hit { s with due := s.due.filter fun id => decide (id ≠ call.connection) } call
      envelope.version now =
      none := hmiss
    rw [hmiss']
    exact getElem?_move hcall
  obtain ⟨id, secret, stage⟩ := call
  cases stage with
  | found row =>
    simp only [State.step, hcall]
    exact hproceed
  | _ => cases hnext

theorem sound_other {action : Action W S} (hdecipher : ∀ i, action ≠ .decipher i)
    (hproceed : ∀ i now, action ≠ .proceed i now) : Sound cipher cacheTtlMs s action where
  keyed i _ _ _ hact := absurd hact (hdecipher i)
  own i _ _ _ _ hact := absurd hact (hdecipher i)
  renewed i now _ _ hact := absurd hact (hproceed i now)

theorem sound_step (h : Inv cipher s) {action : Action W S} (horderly : Orderly s action) :
    Sound cipher cacheTtlMs s action := by
  cases action with
  | decipher i => exact sound_decipher h i
  | proceed i now => exact sound_proceed i horderly
  | _ => exact sound_other (fun i h => by cases h) fun i now h => by cases h

/-- In an orderly history every envelope is opened with its own key, and what is invalidated is
unwrapped again. -/
theorem orderly_history_sound {actions : List (Action W S)}
    (h : Always (fun before action => Orderly (run cipher cacheTtlMs before) action) actions) :
    Always (fun before action => Sound cipher cacheTtlMs (run cipher cacheTtlMs before) action) actions :=
  h.kept ⟨nofun, nofun, nofun⟩ fun hinv horderly => ⟨hinv.step horderly, sound_step hinv horderly⟩

/-- Each key opens what is sealed under its own number. -/
def numbered : Cipher Nat Nat Nat Nat where
  unwrap := id
  decipher := fun key text => if key = text then some text else none
  zero := 0

def connection : ConnectionId := ⟨"con_1", by decide⟩

def row (credentials version webhookSecret : Nat) : StoredConnection Nat Nat :=
  ⟨.ACTIVE, ⟨⟨credentials, credentials⟩, version⟩, some ⟨webhookSecret, webhookSecret⟩⟩

/-- Two calls read the credentials, the second with the key that the first has cached;
then they are stored anew under the next version, invalidated and read again. -/
def rotation : List (CredentialResolver.Action Nat Nat) :=
  [.store connection (row 5 1 7), .find connection .credentials, .find connection .credentials, .proceed 0 0,
    .unwrapped 0 0, .proceed 1 10, .decipher 0, .finish 0 10, .decipher 1, .finish 1 20,
    .store connection (row 6 2 7), .invalidate connection, .find connection .credentials, .proceed 2 1000]

theorem rotation_sound :
    Always (fun before action => Sound numbered 60000 (run numbered 60000 before) action) rotation ∧
      ((run numbered 60000 (rotation.take 6)).calls[1]?).map (·.stage) =
        some (.deciphering ⟨⟨5, 5⟩, 1⟩ 0) := by
  refine ⟨?_, rfl⟩
  apply orderly_history_sound
  refine AlwaysFrom.always (show AlwaysFrom _ [] rotation from
    ⟨?_, trivial, trivial, ?_, trivial, ?_, trivial, trivial, trivial, trivial, ?_, trivial, trivial, ?_,
      trivial⟩) always_nil
  · exact nofun
  · intro call envelope cached _ _ hhit
    cases hhit
  · intro call envelope cached hcall _ _
    obtain rfl : _ = call := Option.some.inj hcall
    exact ⟨nofun, by decide⟩
  · intro old hold hversion
    cases List.mem_singleton.1 hold
    exact absurd hversion (by decide)
  · intro call envelope cached hcall hnext hhit
    obtain rfl : _ = call := Option.some.inj hcall
    have hdecrypts : Next.decrypts _ = Next.decrypts envelope := hnext
    obtain rfl : _ = envelope := Next.decrypts.inj hdecrypts
    cases hhit

/-- The webhook secret is read, stored anew and read again a second later. -/
def replaced : List (CredentialResolver.Action Nat Nat) :=
  [.store connection (row 5 1 7), .find connection .webhookSecret, .proceed 0 0, .unwrapped 0 0,
    .decipher 0, .finish 0 0,
    .store connection (row 6 2 8), .invalidate connection, .find connection .webhookSecret, .proceed 1 1000]

theorem webhook_key_mixed : ¬ ∀ actions : List (CredentialResolver.Action Nat Nat),
    Always (fun before action => Sound numbered 60000 (run numbered 60000 before) action) actions := by
  intro h
  have hlast := h (replaced ++ [.decipher 1]) replaced _ [] rfl
  have hkey := hlast.keyed 1 ⟨connection, .webhookSecret, .deciphering ⟨⟨8, 8⟩, 1⟩ 0⟩
    ⟨⟨8, 8⟩, 1⟩ 0 rfl (by rfl) rfl
  have hbuffer : (run numbered 60000 replaced).buffers[0]? = some 7 := by rfl
  exact absurd (hbuffer.symm.trans hkey) (by decide)

end BaasConnector.Crypto.DataKeys
