import BaasConnector.Auth.Guard
import BaasConnector.Sdk.Client
import Mathlib

namespace BaasConnector.Sdk.Accepted

open BaasConnector.Lib.Keyed BaasConnector.Taxonomy.Errors BaasConnector.Auth.Signature
      BaasConnector.Auth.Replay
open BaasConnector.Auth.Guard BaasConnector.Sdk.Client BaasConnector.Sdk.Resources

/-- What lies between the client and the controllers: the target that a URL
arrives as, and the route paths that a target matches. -/
structure Transport where
  originalUrl : String → String
  matched : String → String → Bool

def bodyLimit : Nat := 1048576

def Transport.received (transport : Transport) (sent : SentRequest) : IncomingRequest :=
  { method := sent.method.text
    originalUrl := transport.originalUrl sent.url
    rawBody := sent.body
    authorization := some sent.authorization
    timestamp := sent.signatureHeaders.map fun headers => headers.timestamp
    nonce := sent.signatureHeaders.map fun headers => headers.nonce
    signature := sent.signatureHeaders.map fun headers => headers.signature }

def Transport.dispatch (transport : Transport) (sent : SentRequest) : Option Route :=
  if bodyLimit < (sent.body.getD "").utf8ByteSize then none
  else routes.find? fun route =>
    decide (route.method = sent.method.text) && transport.matched route.path (transport.originalUrl sent.url)

/-- The API demands a signature for the request. -/
def Demanded (transport : Transport) (key : ApiKey) (sent : SentRequest) (route : Route) : Prop :=
  transport.dispatch sent = some route ∧ route.isPublic = false ∧ demandsSignature route key = true

/-- The request passes the signature check wherever the API makes one: the guard
decides as the scopes of the key say. -/
def SignaturePasses (guard : ApiKeyGuard) (transport : Transport) (key : ApiKey) (sent : SentRequest) :
    Prop :=
  ∀ route, Demanded transport key sent route →
    (guard.canActivate route (transport.received sent)).1 = assertScopes key route.scopes

/-- The client signs the request, and signs what the API will see of it. -/
structure Agrees (guard : ApiKeyGuard) (transport : Transport) (options : BaasClientOptions)
    (args : RequestArgs) : Prop where
  signed : rotasAssinadas args.path = true
  body : args.body.isSome = true
  url : transport.originalUrl (trimSlashes options.baseUrl ++ comQuery args.path args.options.query) =
    comQuery args.path args.options.query
  remembered : guard.nonces = .redis → guard.toleranceSeconds ≠ 0

/-- The digests, and how the timestamp of a request is read, as far as the
verification relies on them. -/
structure Digests (runtime : Runtime) (secret : String) (draws : Draws) : Prop where
  number : runtime.number (toString (draws.now / 1000)) = some ((draws.now / 1000 : Int) : ℚ)
  length : ∀ a b, (runtime.sha256 a).toList.length = (runtime.sha256 b).toList.length
  empty : runtime.sha256 "" ≠ runtime.sha256 "\x7b\x7d"
  untagged : ∀ text, ¬ ['v', '1', '='] <+: (runtime.hmac secret text).toList

/-- The client and the API share the key and its signing secret. -/
structure Shared (guard : ApiKeyGuard) (options : BaasClientOptions) (key : ApiKey)
    (secret : String) : Prop where
  authenticated : guard.authenticate options.apiKey.trimAscii.toString = .ok key
  server : key.signingSecret = some secret
  client : options.signingSecret = some secret
  nonempty : secret ≠ ""

/-- The clocks differ by at most the tolerance, and the nonce is new. -/
structure Fresh (guard : ApiKeyGuard) (key : ApiKey) (draws : Draws) : Prop where
  clocks : |guard.now - draws.now| ≤ guard.toleranceSeconds * 1000
  unseen : guard.seen.get (composite guard.nonces key.id (generateNonce draws.nonceBytes)) = none

section Checks

variable {guard : ApiKeyGuard} {transport : Transport} {options : BaasClientOptions} {key : ApiKey}
  {secret : String} {args : RequestArgs} {draws : Draws}

theorem skew_le {now clientNow : Int} {tol : Nat} (h : |now - clientNow| ≤ tol * 1000) :
    skew now ((clientNow / 1000 : Int) : ℚ) ≤ tol := by
  obtain ⟨hlow, hhigh⟩ := abs_le.mp h
  have habs : |now / 1000 - clientNow / 1000| ≤ (tol : Int) := abs_le.mpr ⟨by omega, by omega⟩
  rw [skew]
  exact_mod_cast habs

theorem provided_untagged {input : SignatureInput} (h : ¬ ['v', '1', '='] <+: input.signature.toList) :
    provided input = input.signature := by
  unfold provided
  split
  · next rest hsig => exact absurd ⟨rest, by rw [hsig]; rfl⟩ h
  · rfl

/-- Two canonical strings of one method, timestamp and nonce are the same
exactly when the paths and the body digests are. -/
theorem canonicalSignatureString_eq_iff {runtime : Runtime} {a b : CanonicalRequest}
    (hlength : (runtime.sha256 a.rawBody).toList.length = (runtime.sha256 b.rawBody).toList.length)
    (hmethod : a.method = b.method) (htimestamp : a.timestamp = b.timestamp) (hnonce : a.nonce = b.nonce) :
    canonicalSignatureString runtime a = canonicalSignatureString runtime b ↔
      a.path = b.path ∧ runtime.sha256 a.rawBody = runtime.sha256 b.rawBody := by
  constructor
  · intro h
    have hlist := congrArg String.toList h
    simp only [canonicalSignatureString, hmethod, htimestamp, hnonce, String.toList_append,
      List.append_assoc] at hlist
    have hrest := List.append_cancel_left (List.append_cancel_left hlist)
    obtain ⟨hpath, htail⟩ := List.append_inj' hrest (by simp [hlength])
    have hdigest := List.append_cancel_left (List.append_cancel_left (List.append_cancel_left
      (List.append_cancel_left (List.append_cancel_left htail))))
    exact ⟨String.toList_injective hpath, String.toList_injective hdigest⟩
  · rintro ⟨hpath, hdigest⟩
    simp only [canonicalSignatureString, hmethod, hpath, htimestamp, hnonce, hdigest]

theorem bearer_authorization (apiKey : String) :
    bearer (some ("Bearer " ++ apiKey)) = some apiKey.trimAscii.toString := by
  have hdrop : ("Bearer " ++ apiKey).toList.drop 7 = apiKey.toList := by
    rw [String.toList_append]
    exact List.drop_left' (by decide)
  have htag : "Bearer ".toList.isPrefixOf ("Bearer " ++ apiKey).toList = true := by
    rw [List.isPrefixOf_iff_prefix, String.toList_append]
    exact List.prefix_append _ _
  simp only [bearer, Option.bind_some, htag, if_true, hdrop, String.ofList_toList]

/-- What the API signs over, of a request that the client has signed. -/
theorem signed_fields (hshared : Shared guard options key secret)
    (hsigned : rotasAssinadas args.path = true) :
    (request guard.runtime options args draws).signatureHeaders =
      some ⟨toString (draws.now / 1000), generateNonce draws.nonceBytes,
        buildSignature guard.runtime secret (signedInput args draws)⟩ := by
  have hfilter : options.signingSecret.filter (· ≠ "") = some secret := by
    simp [hshared.client, hshared.nonempty]
  simp only [request, signatureHeaders, hfilter, hsigned, if_true, signedInput]

theorem unsigned_fields (hsigned : rotasAssinadas args.path = false) :
    (request guard.runtime options args draws).signatureHeaders = none := by
  simp only [request, signatureHeaders, hsigned]
  split <;> rfl

theorem unsigned_refused (hshared : Shared guard options key secret)
    (hsigned : rotasAssinadas args.path = false) :
    (guard.verify key (transport.received (request guard.runtime options args draws))).1 ≠ .ok () := by
  rw [ApiKeyGuard.verify, Ne, verifySignature_ok_iff hshared.server hshared.nonempty]
  rintro ⟨-, hlength, -⟩
  simp only [ApiKeyGuard.arrival, signatureInput, Transport.received,
    unsigned_fields hsigned, Option.map_none,
    Option.getD_none] at hlength
  exact absurd hlength (by decide)

theorem digest_eq_iff {runtime : Runtime} (hdigests : Digests runtime secret draws) :
    runtime.sha256 (corpo args) = runtime.sha256 ((args.body.map stringify).getD "\x7b\x7d") ↔
      args.body.isSome = true := by
  unfold corpo
  cases args.body with
  | none => simp [hdigests.empty]
  | some body => simp

/-- A request that the client has signed passes exactly when the API sees the
path that was signed and bytes where the client had a body. -/
theorem signed_accepted_iff (hdigests : Digests guard.runtime secret draws)
    (hshared : Shared guard options key secret)
    (hfresh : Fresh guard key draws)
    (hhmac : Set.InjOn (guard.runtime.hmac secret)
      {canonicalSignatureString guard.runtime (signedInput args draws),
        canonicalSignatureString guard.runtime (signatureInput
          (transport.received (request guard.runtime options args draws))).toCanonicalRequest})
    (hsigned : rotasAssinadas args.path = true) :
    (guard.verify key (transport.received (request guard.runtime options args draws))).1 = .ok () ↔
      args.body.isSome = true ∧
        transport.originalUrl (trimSlashes options.baseUrl ++ comQuery args.path args.options.query) =
          comQuery args.path args.options.query ∧
        (guard.nonces = .redis → guard.toleranceSeconds ≠ 0) := by
  let sent := request guard.runtime options args draws
  let input := signatureInput (transport.received sent)
  have hfields : input = ⟨⟨args.method.text, transport.originalUrl sent.url,
      (args.body.map stringify).getD "\x7b\x7d", toString (draws.now / 1000), generateNonce draws.nonceBytes⟩,
      buildSignature guard.runtime secret (signedInput args draws)⟩ := by
    simp only [input, sent, signatureInput, Transport.received,
      signed_fields hshared hsigned, Option.map_some,
      Option.getD_some]
    rfl
  have hwindow : InWindow guard.runtime guard.toleranceSeconds
    (guard.arrival key (transport.received sent)) := by
    refine ⟨_, ?_, skew_le hfresh.clocks⟩
    change guard.runtime.number input.timestamp = _
    rw [hfields]
    exact hdigests.number
  have hnonce : input.nonce = generateNonce draws.nonceBytes := by rw [hfields]
  have hlength : 16 ≤ utf16Length input.nonce := by
    rw [hnonce]
    exact sixteen_le_generateNonce draws.nonceBytes
  have hunseen : guard.seen.get (composite guard.nonces key.id input.nonce) = none := by
    rw [hnonce]
    exact hfresh.unseen
  have hclaim : (claim guard.nonces guard.seen guard.claimedAt key.id input.nonce
    (guard.toleranceSeconds * 2)).1 =
      .ok true ↔ (guard.nonces = .redis → guard.toleranceSeconds ≠ 0) := by
    rw [claim_unseen hunseen]
    simp
  have hprovided : provided input = buildSignature guard.runtime secret (signedInput args draws) := by
    rw [provided_untagged (by rw [hfields]; exact hdigests.untagged _), hfields]
  have hcanonical : provided input = buildSignature guard.runtime secret input.toCanonicalRequest ↔
      args.body.isSome = true ∧ transport.originalUrl sent.url = comQuery args.path args.options.query := by
    rw [hprovided, buildSignature, buildSignature, hhmac.eq_iff (by simp) (by simp [input, sent]),
      canonicalSignatureString_eq_iff (hdigests.length _ _) (by rw [hfields]; rfl) (by rw [hfields]; rfl)
        (by rw [hfields]; rfl)]
    have hbody : input.rawBody = (args.body.map stringify).getD "\x7b\x7d" := by rw [hfields]
    have hpath : input.path = transport.originalUrl sent.url := by rw [hfields]
    rw [hbody, hpath]
    change _ ∧ guard.runtime.sha256 (corpo args) = _ ↔ _
    rw [digest_eq_iff hdigests, and_comm, eq_comm (a := (signedInput args draws).path)]
    rfl
  rw [ApiKeyGuard.verify, verifySignature_ok_iff hshared.server hshared.nonempty]
  constructor
  · rintro ⟨-, -, hclaimed, hsame⟩
    obtain ⟨hbody, hurl⟩ := hcanonical.mp hsame
    exact ⟨hbody, hurl, hclaim.mp hclaimed⟩
  · rintro ⟨hbody, hurl, hremembered⟩
    exact ⟨hwindow, hlength, hclaim.mpr hremembered, hcanonical.mpr ⟨hbody, hurl⟩⟩

end Checks

variable {guard : ApiKeyGuard} {transport : Transport} {options : BaasClientOptions} {key : ApiKey}
  {secret : String} {draws : Draws}

/-- A fresh request of a resource method passes the signature check exactly when
the API demands none, or the client signs it and signs what the API sees. -/
theorem sdk_request_passes (call : Call) (requestOptions : RequestOptions)
    (hdigests : Digests guard.runtime secret draws) (hshared : Shared guard options key secret)
    (hfresh : Fresh guard key draws)
    (hhmac : Set.InjOn (guard.runtime.hmac secret)
      {canonicalSignatureString guard.runtime (signedInput (call.args requestOptions) draws),
        canonicalSignatureString guard.runtime (signatureInput (transport.received
          (request guard.runtime options (call.args requestOptions) draws))).toCanonicalRequest}) :
    SignaturePasses guard transport key (request guard.runtime options (call.args requestOptions) draws) ↔
      ((∃ route, Demanded transport key (request guard.runtime options (call.args requestOptions) draws)
        route) →
        Agrees guard transport options (call.args requestOptions)) := by
  have hpass : ∀ route,
      Demanded transport key (request guard.runtime options (call.args requestOptions) draws) route →
      ((guard.canActivate route (transport.received
          (request guard.runtime options (call.args requestOptions) draws))).1 =
            assertScopes key route.scopes ↔
        Agrees guard transport options (call.args requestOptions)) := by
    intro route hdemanded
    rw [canActivate_demanded hdemanded.2.1 (bearer_authorization options.apiKey) hshared.authenticated
      hdemanded.2.2]
    cases hsigned : rotasAssinadas (call.args requestOptions).path with
    | false =>
      refine ⟨fun h => absurd h (unsigned_refused hshared hsigned), fun h => ?_⟩
      rw [h.signed] at hsigned
      cases hsigned
    | true =>
      rw [signed_accepted_iff hdigests hshared hfresh hhmac hsigned]
      exact ⟨fun ⟨hbody, hurl, hremembered⟩ => ⟨hsigned, hbody, hurl, hremembered⟩,
        fun h => ⟨h.body, h.url, h.remembered⟩⟩
  constructor
  · rintro h ⟨route, hdemanded⟩
    exact (hpass route hdemanded).mp (h route hdemanded)
  · intro h route hdemanded
    exact (hpass route hdemanded).mpr (h ⟨route, hdemanded⟩)

section Sample

def sampleRuntime : Runtime :=
  ⟨fun text => if text = "" then "0" else "1", fun secret text => secret ++ text,
    fun text => text.toInt?.map fun n => (n : ℚ)⟩

def segments (path : String) : List (List Char) := path.toList.splitOn '/'

/-- A parameter of a route path stands for one segment. -/
def sampleMatched (path url : String) : Bool :=
  let target := (segments url).drop 1
  decide ((segments path).length = target.length) &&
    ((segments path).zip target).all fun pair => decide (pair.1.head? = some ':' ∨ pair.1 = pair.2)

def sampleTransport : Transport :=
  ⟨fun url => String.ofList (url.toList.drop "https://api".length), sampleMatched⟩

def sampleKey : ApiKey :=
  { id := "key_1", signingSecret := some "secret", scopes := ["balance:read", "pix:write"],
    signingRequired := true }

def sampleGuard : ApiKeyGuard :=
  { runtime := sampleRuntime, authenticate := fun _ => .ok sampleKey, nonces := .redis,
    toleranceSeconds := 300
    seen := .empty, now := 1000000, claimedAt := 1000000 }

def sampleOptions : BaasClientOptions := ⟨"https://api/", "bck_prd_key_1", some "secret"⟩

def sampleDraws : Draws := ⟨1000000, List.Vector.replicate 16 0, "uuid"⟩

theorem sample_digests : Digests sampleRuntime "secret" sampleDraws where
  number := by simp [sampleRuntime]
  length a b := by
    have hone : ∀ text, (sampleRuntime.sha256 text).toList.length = 1 := by
      intro text
      simp only [sampleRuntime]
      split <;> rfl
    rw [hone a, hone b]
  empty := by decide
  untagged text h := by
    simp [sampleRuntime, String.toList_append] at h

theorem sample_hmac : Function.Injective (sampleRuntime.hmac "secret") := sampleHmac_injective "secret"

theorem sample_shared : Shared sampleGuard sampleOptions sampleKey "secret" := ⟨rfl, rfl, rfl, by decide⟩

theorem sample_fresh : Fresh sampleGuard sampleKey sampleDraws := ⟨by decide, rfl⟩

/-- A transfer is signed, and the API accepts it. -/
theorem sdk_request_passes_transfer :
    SignaturePasses sampleGuard sampleTransport sampleKey (request sampleRuntime sampleOptions
      ((Call.pixTransfersSend "acc_1" [("amount", .str "100")]).args {}) sampleDraws) :=
  (sdk_request_passes (.pixTransfersSend "acc_1" [("amount", .str "100")]) {} sample_digests sample_shared
    sample_fresh (sample_hmac.injOn)).mpr
    fun _ => ⟨by decide, rfl, by decide, fun _ => by decide⟩

/-- A key that requires signatures reads a balance: the client does not sign. -/
theorem balance_refused :
    ¬ ∀ (guard : ApiKeyGuard) (transport : Transport) (options : BaasClientOptions) (key : ApiKey)
        (secret : String) (draws : Draws) (call : Call) (requestOptions : RequestOptions),
      Digests guard.runtime secret draws → Function.Injective (guard.runtime.hmac secret) →
      Shared guard options key secret → Fresh guard key draws →
      transport.originalUrl (request guard.runtime options (call.args requestOptions) draws).url =
        comQuery (call.args requestOptions).path (call.args requestOptions).options.query →
      SignaturePasses guard transport key (request guard.runtime options
        (call.args requestOptions) draws) := by
  intro h
  have hpass := h sampleGuard sampleTransport sampleOptions sampleKey "secret" sampleDraws
    (.accountsBalance "acc_1" none) {} sample_digests sample_hmac sample_shared
      sample_fresh (by decide)
  let route : Route := { method := "GET", path := "v1/accounts/:id/balance", scopes := ["balance:read"] }
  have hdemanded : Demanded sampleTransport sampleKey (request sampleRuntime sampleOptions
      ((Call.accountsBalance "acc_1" none).args {}) sampleDraws) route :=
    ⟨by decide, rfl, rfl⟩
  have hok := (canActivate_demanded hdemanded.2.1 (bearer_authorization sampleOptions.apiKey)
    sample_shared.authenticated hdemanded.2.2).mp (hpass route hdemanded)
  exact unsigned_refused sample_shared (by decide) hok

end Sample

end BaasConnector.Sdk.Accepted
