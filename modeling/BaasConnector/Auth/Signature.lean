import BaasConnector.Lib.Keyed
import BaasConnector.Lib.Separators
import BaasConnector.Taxonomy.Errors
import Mathlib

namespace BaasConnector.Auth.Signature

open BaasConnector.Lib.Keyed BaasConnector.Lib.Separators BaasConnector.Taxonomy.Errors

structure CanonicalRequest where
  method : String
  path : String
  rawBody : String
  timestamp : String
  nonce : String
deriving DecidableEq, Repr

structure SignatureInput extends CanonicalRequest where
  signature : String
deriving DecidableEq, Repr

structure AuthenticatedKey where
  id : String
  signingSecret : Option String
deriving DecidableEq, Repr

/-- What the verification takes from its runtime: the digests, and the number
that a text stands for when it stands for a finite one. -/
structure Runtime where
  sha256 : String → String
  hmac : String → String → String
  number : String → Option ℚ

variable (runtime : Runtime)

def canonicalSignatureString (input : CanonicalRequest) : String :=
  input.method.toUpper ++ "\n" ++ input.path ++ "\n" ++ input.timestamp ++ "\n" ++ input.nonce ++ "\n" ++
    runtime.sha256 input.rawBody

def buildSignature (secret : String) (input : CanonicalRequest) : String :=
  runtime.hmac secret (canonicalSignatureString runtime input)

/-- The signature without its version tag. -/
def provided (input : SignatureInput) : String :=
  match input.signature.toList with
  | 'v' :: '1' :: '=' :: rest => String.ofList rest
  | _ => input.signature

section Nonces

inductive NonceStoreKind
  | redis | inMemory
deriving DecidableEq, Repr

/-- The claimed nonces with the instants they expire at. -/
abbrev NonceStore := Table String Int

def redisClaim (seen : NonceStore) (now : Int) (composite : String) (ttlSeconds : Nat) :
    Except Thrown Bool × NonceStore :=
  if ttlSeconds = 0 then (.error (.failure "ERR invalid expire time in 'set' command"), seen)
  else if (seen.get composite).any fun expiry => decide (now < expiry) then (.ok false, seen)
  else (.ok true, seen.set composite (now + ttlSeconds * 1000))

def forgetExpired (seen : NonceStore) (now : Int) : NonceStore :=
  seen.rows.foldl (fun seen row => if row.2 ≤ now then seen.delete row.1 else seen) seen

def inMemoryClaim (seen : NonceStore) (now : Int) (composite : String) (ttlSeconds : Nat) :
    Except Thrown Bool × NonceStore :=
  let seen := forgetExpired seen now
  if (seen.get composite).isSome then (.ok false, seen)
  else (.ok true, seen.set composite (now + ttlSeconds * 1000))

def claim (kind : NonceStoreKind) (seen : NonceStore) (now : Int) (keyId nonce : String)
    (ttlSeconds : Nat) : Except Thrown Bool × NonceStore :=
  match kind with
  | .redis => redisClaim seen now ("baas:nonce:" ++ keyId ++ ":" ++ nonce) ttlSeconds
  | .inMemory => inMemoryClaim seen now (keyId ++ ":" ++ nonce) ttlSeconds

end Nonces

/-- The length of a text in UTF-16 units. -/
def utf16Length (text : String) : Nat := (text.toList.map fun c => if c.val < 0x10000 then 1 else 2).sum

def skew (now : Int) (timestamp : ℚ) : ℚ := |((now / 1000 : Int) : ℚ) - timestamp|

/-- One request: the clock as it is read for the window, and as it stands when
the nonce is claimed. -/
structure Arrival where
  key : AuthenticatedKey
  input : SignatureInput
  now : Int
  claimedAt : Int
deriving DecidableEq

def verifySignature (kind : NonceStoreKind) (toleranceSeconds : Nat) (seen : NonceStore) (a : Arrival) :
    Except Thrown Unit × NonceStore :=
  match a.key.signingSecret.filter (· ≠ "") with
  | none =>
    (.error (.baas
      { code := .SIGNATURE_INVALID
        message := "Esta chave exige assinatura, mas nao possui segredo de assinatura configurado." }), seen)
  | some secret =>
    match runtime.number a.input.timestamp with
    | none =>
      (.error (.baas { code := .SIGNATURE_INVALID, message := "X-Baas-Timestamp ausente ou invalido." }),
        seen)
    | some timestamp =>
      if skew a.now timestamp > toleranceSeconds then
        (.error (.baas
          { code := .SIGNATURE_EXPIRED
            message := s!"Assinatura fora da janela de {toleranceSeconds}s." }), seen)
      else if utf16Length a.input.nonce < 16 then
        (.error (.baas
          { code := .SIGNATURE_INVALID
            message := "X-Baas-Nonce precisa de ao menos 16 caracteres." }), seen)
      else
        match claim kind seen a.claimedAt a.key.id a.input.nonce (toleranceSeconds * 2) with
        | (.error e, seen) => (.error e, seen)
        | (.ok false, seen) =>
          (.error (.baas { code := .NONCE_REPLAYED, message := "Este nonce ja foi utilizado." }), seen)
        | (.ok true, seen) =>
          if provided a.input = buildSignature runtime secret a.input.toCanonicalRequest then (.ok (), seen)
          else
            (.error (.baas
              { code := .SIGNATURE_INVALID
                message := "A assinatura da requisicao nao confere." }), seen)

section Canonical

/-- The fields as the protocol delivers them: no line break in any of them, and
the method in upper case. -/
structure WellFormed (input : CanonicalRequest) : Prop where
  method : '\n' ∉ input.method.toList
  path : '\n' ∉ input.path.toList
  timestamp : '\n' ∉ input.timestamp.toList
  nonce : '\n' ∉ input.nonce.toList
  upper : input.method.toUpper = input.method

variable {runtime}

/-- The canonical string determines every field that it joins. -/
theorem canonicalSignatureString_injective (hsha : Function.Injective runtime.sha256)
    {a b : CanonicalRequest} (ha : WellFormed a) (hb : WellFormed b)
    (h : canonicalSignatureString runtime a = canonicalSignatureString runtime b) : a = b := by
  have hlist := congrArg String.toList h
  simp only [canonicalSignatureString, String.toList_append, List.append_assoc] at hlist
  rw [ha.upper, hb.upper] at hlist
  obtain ⟨hmethod, hlist⟩ := split_at_separator ha.method hb.method hlist
  obtain ⟨hpath, hlist⟩ := split_at_separator ha.path hb.path hlist
  obtain ⟨htimestamp, hlist⟩ := split_at_separator ha.timestamp hb.timestamp hlist
  obtain ⟨hnonce, hbody⟩ := split_at_separator ha.nonce hb.nonce hlist
  cases a with
  | mk method path rawBody timestamp nonce =>
    cases b with
    | mk method' path' rawBody' timestamp' nonce' =>
      rw [CanonicalRequest.mk.injEq]
      exact ⟨String.toList_injective hmethod, String.toList_injective hpath,
        hsha (String.toList_injective hbody), String.toList_injective htimestamp,
        String.toList_injective hnonce⟩

end Canonical

end BaasConnector.Auth.Signature
