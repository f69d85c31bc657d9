import BaasConnector.Lib.Keyed

namespace BaasConnector.Crypto.CredentialResolver

open BaasConnector.Lib.Keyed

inductive ConnectionStatus
  | PENDING_VALIDATION | ACTIVE | DEGRADED | DISABLED | INVALID_CREDENTIALS
deriving DecidableEq

/-- The id of a connection, minted without a colon. -/
structure ConnectionId where
  text : String
  minted : ':' ∉ text.toList
deriving DecidableEq

/-- A data key, wrapped, with the text that it seals. -/
structure Sealed (W S : Type) where
  wrappedKey : W
  text : S

structure EncryptedEnvelope (W S : Type) extends Sealed W S where
  version : Nat

structure StoredConnection (W S : Type) where
  status : ConnectionStatus
  credentials : EncryptedEnvelope W S
  webhookSecret : Option (Sealed W S)

/-- The two secrets that are read of a connection. -/
inductive Secret
  | credentials | webhookSecret
deriving DecidableEq

def Secret.cacheKey (id : ConnectionId) : Secret → String
  | .credentials => "conn:" ++ id.text
  | .webhookSecret => "whsec:" ++ id.text

/-- The key of a data key in the cache. -/
def versioned (cacheKey : String) (version : Nat) : String := cacheKey ++ ":v" ++ toString version

/-- `source` is what the data key was unwrapped from. The key itself lies in a buffer. -/
structure CachedKey (W : Type) where
  buffer : Nat
  expiresAtMs : Int
  source : W

structure CachedValue (P : Type) where
  value : P
  expiresAtMs : Int

inductive Stage (W S P : Type)
  | found (row : Option (StoredConnection W S))
  | unwrapping (envelope : EncryptedEnvelope W S)
  | deciphering (envelope : EncryptedEnvelope W S) (buffer : Nat)
  | opened (version : Nat) (plaintext : P)
  | answered (plaintext : Option P)
  | threw

/-- A call of `resolve` or of `webhookSecret`. -/
structure Call (W S P : Type) where
  connection : ConnectionId
  secret : Secret
  stage : Stage W S P

/-- The resolver over its envelopes. Of the repository all that was ever stored is
kept, the newest first. `due` lists what was invalidated and not decrypted since. -/
structure State (W S K P : Type) where
  stored : List (ConnectionId × StoredConnection W S)
  keys : Table String (CachedKey W)
  buffers : List K
  values : Table String (CachedValue P)
  calls : List (Call W S P)
  due : List ConnectionId

variable {W S K P : Type}

def State.initial : State W S K P := ⟨[], .empty, [], .empty, [], []⟩

inductive Action (W S : Type)
  | store (id : ConnectionId) (row : StoredConnection W S)
  | find (id : ConnectionId) (secret : Secret)
  | proceed (call : Nat) (now : Int)
  | unwrapped (call : Nat) (now : Int)
  | unwrapFailed (call : Nat)
  | decipher (call : Nat)
  | finish (call : Nat) (now : Int)
  | invalidate (id : ConnectionId)

def ttlMs : Int := 60000

/-- What the rest of the code relies on: the key that a wrapped key gives back, the
text that a key opens, and a key of zeros. -/
structure Cipher (W S K P : Type) where
  unwrap : W → K
  decipher : K → S → Option P
  zero : K

/-- What a call does with the row that it found. -/
inductive Next (W S P : Type)
  | throws
  | answers (plaintext : Option P)
  | decrypts (envelope : EncryptedEnvelope W S)

namespace State

variable (cipher : Cipher W S K P) (cacheTtlMs : Int) (s : State W S K P)

def resolveNext (id : ConnectionId) (now : Int) : Option (StoredConnection W S) → Next W S P
  | none => .throws
  | some stored =>
    if stored.status = .DISABLED ∨ stored.status = .INVALID_CREDENTIALS then .throws
    else
      match (s.values.get (versioned id.text stored.credentials.version)).filter
          fun cached => decide (now < cached.expiresAtMs) with
      | some cached => .answers (some cached.value)
      | none => .decrypts stored.credentials

def webhookNext : Option (StoredConnection W S) → Next W S P
  | none => .answers none
  | some stored =>
    match stored.webhookSecret with
    | none => .answers none
    | some secret => .decrypts ⟨secret, 1⟩

def next (call : Call W S P) (now : Int) : Next W S P :=
  match call.stage, call.secret with
  | .found row, .credentials => s.resolveNext call.connection now row
  | .found row, .webhookSecret => webhookNext row
  | _, _ => .throws

def move (i : Nat) (call : Call W S P) (stage : Stage W S P) : State W S K P :=
  { s with calls := s.calls.set i { call with stage := stage } }

def keyName (call : Call W S P) (version : Nat) : String :=
  versioned (call.secret.cacheKey call.connection) version

/-- The data key of the cache that a decryption uses. -/
def hit (call : Call W S P) (version : Nat) (now : Int) : Option (CachedKey W) :=
  (s.keys.get (keyName call version)).filter fun cached => decide (now < cached.expiresAtMs)

/-- The first part of `decrypt`, up to where a key is unwrapped. -/
def decrypt (i : Nat) (call : Call W S P) (envelope : EncryptedEnvelope W S) (now : Int) : State W S K P :=
  let s := { s with due := s.due.filter fun id => decide (id ≠ call.connection) }
  match s.hit call envelope.version now with
  | some cached => s.move i call (.deciphering envelope cached.buffer)
  | none => s.move i call (.unwrapping envelope)

def proceed (i : Nat) (call : Call W S P) (now : Int) : State W S K P :=
  match s.next call now with
  | .throws => s.move i call .threw
  | .answers plaintext => s.move i call (.answered plaintext)
  | .decrypts envelope => s.decrypt i call envelope now

def unwrapped (i : Nat) (call : Call W S P) (envelope : EncryptedEnvelope W S) (now : Int) : State W S K P :=
  { s.move i call (.deciphering envelope s.buffers.length) with
    keys := s.keys.set (keyName call envelope.version)
      ⟨s.buffers.length, now + cacheTtlMs, envelope.wrappedKey⟩
    buffers := s.buffers ++ [cipher.unwrap envelope.wrappedKey] }

def decipher (i : Nat) (call : Call W S P) (envelope : EncryptedEnvelope W S)
    (buffer : Nat) : State W S K P :=
  match s.buffers[buffer]?.bind fun dataKey => cipher.decipher dataKey envelope.text with
  | some plaintext => s.move i call (.opened envelope.version plaintext)
  | none => s.move i call .threw

def finish (i : Nat) (call : Call W S P) (version : Nat) (plaintext : P) (now : Int) : State W S K P :=
  let s := s.move i call (.answered (some plaintext))
  match call.secret with
  | .credentials =>
    { s with values := s.values.set (versioned call.connection.text version) ⟨plaintext, now + ttlMs⟩ }
  | .webhookSecret => s

/-- `EnvelopeCrypto.invalidate`. -/
def invalidateKey (cacheKey : String) : State W S K P :=
  match s.keys.get cacheKey with
  | some cached =>
    { s with keys := s.keys.delete cacheKey, buffers := s.buffers.set cached.buffer cipher.zero }
  | none => s

def invalidate (id : ConnectionId) : State W S K P :=
  let names := (s.values.rows.map Prod.fst).filter fun name => (id.text ++ ":").toList.isPrefixOf name.toList
  { s.invalidateKey cipher (Secret.credentials.cacheKey id) with
    values := names.foldl Table.delete s.values
    due := id :: s.due }

def step (action : Action W S) : State W S K P :=
  match action with
  | .store id row => { s with stored := (id, row) :: s.stored }
  | .find id secret => { s with calls := s.calls ++ [⟨id, secret, .found (lookup id s.stored)⟩] }
  | .proceed i now =>
    match s.calls[i]? with
    | some ⟨id, secret, .found row⟩ => s.proceed i ⟨id, secret, .found row⟩ now
    | _ => s
  | .unwrapped i now =>
    match s.calls[i]? with
    | some ⟨id, secret, .unwrapping envelope⟩ =>
      s.unwrapped cipher cacheTtlMs i ⟨id, secret, .unwrapping envelope⟩ envelope now
    | _ => s
  | .unwrapFailed i =>
    match s.calls[i]? with
    | some ⟨id, secret, .unwrapping _⟩ => s.move i ⟨id, secret, .threw⟩ .threw
    | _ => s
  | .decipher i =>
    match s.calls[i]? with
    | some ⟨id, secret, .deciphering envelope buffer⟩ =>
      s.decipher cipher i ⟨id, secret, .deciphering envelope buffer⟩ envelope buffer
    | _ => s
  | .finish i now =>
    match s.calls[i]? with
    | some ⟨id, secret, .opened version plaintext⟩ => s.finish i ⟨id, secret, .threw⟩ version plaintext now
    | _ => s
  | .invalidate id => s.invalidate cipher id

end State

def run (cipher : Cipher W S K P) (cacheTtlMs : Int) (actions : List (Action W S)) : State W S K P :=
  actions.foldl (State.step cipher cacheTtlMs) .initial

end BaasConnector.Crypto.CredentialResolver
