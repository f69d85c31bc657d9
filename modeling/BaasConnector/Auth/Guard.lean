import BaasConnector.Auth.Replay

namespace BaasConnector.Auth.Guard

open BaasConnector.Lib.Keyed BaasConnector.Taxonomy.Errors BaasConnector.Auth.Signature
      BaasConnector.Auth.Replay

structure ApiKey extends AuthenticatedKey where
  scopes : List String
  signingRequired : Bool
deriving DecidableEq, Repr

/-- A handler with what the decorators of its controller say. -/
structure Route where
  method : String
  path : String
  isPublic : Bool := false
  scopes : List String := []
  requiresSignature : Bool := false
deriving DecidableEq, Repr

section Routes

def AccountsController : List Route :=
  [{ method := "POST", path := "v1/accounts", scopes := ["accounts:write"] },
   { method := "GET", path := "v1/accounts", scopes := ["accounts:read"] },
   { method := "GET", path := "v1/accounts/:id", scopes := ["accounts:read"] },
   { method := "POST", path := "v1/accounts/:id/block", scopes := ["accounts:write"] },
   { method := "POST", path := "v1/accounts/:id/unblock", scopes := ["accounts:write"] },
   { method := "POST", path := "v1/accounts/:id/close", scopes := ["accounts:close"] }]

def OnboardingController : List Route :=
  [{ method := "GET", path := "v1/accounts/:id/onboarding", scopes := ["onboarding:read"] },
   { method := "POST", path := "v1/onboarding/:caseId/documents", scopes := ["onboarding:documents"] },
   { method := "POST", path := "v1/onboarding/:caseId/requirements/:code/fulfill"
     scopes := ["onboarding:write"] }]

def BalanceController : List Route :=
  [{ method := "GET", path := "v1/accounts/:id/balance", scopes := ["balance:read"] }]

def PixController : List Route :=
  [{ method := "POST", path := "v1/accounts/:accountId/pix/keys", scopes := ["pix:keys:write"] },
   { method := "GET", path := "v1/accounts/:accountId/pix/keys", scopes := ["pix:keys:read"] },
   { method := "GET", path := "v1/accounts/:accountId/pix/keys/resolve", scopes := ["pix:keys:read"] },
   { method := "DELETE", path := "v1/accounts/:accountId/pix/keys/:keyId", scopes := ["pix:keys:write"] },
   { method := "POST", path := "v1/accounts/:accountId/pix/charges", scopes := ["pix:write"] },
   { method := "GET", path := "v1/accounts/:accountId/pix/charges", scopes := ["pix:read"] },
   { method := "GET", path := "v1/accounts/:accountId/pix/charges/:txid", scopes := ["pix:read"] },
   { method := "POST", path := "v1/accounts/:accountId/pix/charges/:txid/cancel", scopes := ["pix:write"] },
   { method := "POST", path := "v1/accounts/:accountId/pix/transfers", scopes := ["pix:write"]
     requiresSignature := true },
   { method := "POST", path := "v1/accounts/:accountId/pix/refunds", scopes := ["pix:refund"]
     requiresSignature := true }]

def TransactionsController : List Route :=
  [{ method := "GET", path := "v1/transactions/:id", scopes := ["pix:read"] },
   { method := "GET", path := "v1/transactions", scopes := ["pix:read"] },
   { method := "GET", path := "v1/accounts/:accountId/statement", scopes := ["statement:read"] },
   { method := "GET", path := "v1/operations/:id", scopes := ["pix:read"] },
   { method := "POST", path := "v1/operations/:id/reconcile", scopes := ["pix:write"] }]

def openRoute (method path : String) : Route := { method := method, path := path, isPublic := true }

/-- The controllers of the console. -/
def consoleRoutes : List Route :=
  [openRoute "POST" "admin/v1/auth/login", openRoute "POST" "admin/v1/auth/refresh",
   openRoute "POST" "admin/v1/auth/logout", openRoute "GET" "admin/v1/me",
   openRoute "GET" "admin/v1/providers", openRoute "GET" "admin/v1/config",
   openRoute "GET" "admin/v1/connections", openRoute "GET" "admin/v1/connections/:id",
   openRoute "POST" "admin/v1/connections", openRoute "PUT" "admin/v1/connections/:id/credentials",
   openRoute "PATCH" "admin/v1/connections/:id", openRoute "POST" "admin/v1/connections/:id/health",
   openRoute "GET" "admin/v1/api-keys", openRoute "POST" "admin/v1/api-keys",
   openRoute "POST" "admin/v1/api-keys/:id/revoke", openRoute "GET" "admin/v1/audit",
   openRoute "GET" "admin/v1/audit/verify", openRoute "GET" "admin/v1/overview",
   openRoute "GET" "admin/v1/webhooks/inbound", openRoute "GET" "admin/v1/webhooks/inbound/:id",
   openRoute "GET" "admin/v1/webhooks/endpoints", openRoute "GET" "admin/v1/webhooks/deliveries"]

def AdminAccountsController : List Route :=
  [openRoute "GET" "admin/v1/accounts", openRoute "GET" "admin/v1/accounts/:id",
   openRoute "POST" "admin/v1/accounts/:id/tax-id/reveal"]

def AdminTransactionsController : List Route :=
  [openRoute "GET" "admin/v1/transactions", openRoute "GET" "admin/v1/transactions/:id",
   openRoute "GET" "admin/v1/transactions/:id/ledger", openRoute "GET" "admin/v1/operations/:id"]

def ReconciliationController : List Route :=
  [openRoute "GET" "admin/v1/reconciliation/breaks", openRoute "GET" "admin/v1/reconciliation/runs",
   openRoute "GET" "admin/v1/reconciliation/breaks/:id/evidence",
   openRoute "GET" "admin/v1/reconciliation/breaks/:id",
   openRoute "POST" "admin/v1/reconciliation/breaks/:id/resolve"]

def routes : List Route :=
  consoleRoutes ++ AccountsController ++ OnboardingController ++
    AdminAccountsController ++ BalanceController ++
    PixController ++ TransactionsController ++ AdminTransactionsController ++ ReconciliationController ++
    [openRoute "POST" "webhooks/:provider/:connectionId", openRoute "GET" "healthz",
     openRoute "GET" "readyz", openRoute "GET" "docs/v1"]

end Routes

/-- A request as it reaches the guard, with the headers that the guard reads. -/
structure IncomingRequest where
  method : String
  originalUrl : String
  rawBody : Option String
  authorization : Option String
  timestamp : Option String
  nonce : Option String
  signature : Option String
deriving DecidableEq, Repr

/-- What the guard signs over. A request without raw bytes has no parsed body
either, and stands for the empty object. -/
def signatureInput (request : IncomingRequest) : SignatureInput :=
  { method := request.method
    path := request.originalUrl
    rawBody := request.rawBody.getD "\x7b\x7d"
    timestamp := request.timestamp.getD ""
    nonce := request.nonce.getD ""
    signature := request.signature.getD "" }

def bearer (header : Option String) : Option String :=
  header.bind fun text =>
    if "Bearer ".toList.isPrefixOf text.toList then
      some (String.ofList (text.toList.drop 7)).trimAscii.toString
    else none

def assertScope (key : ApiKey) (required : String) : Except Thrown Unit :=
  if required ∈ key.scopes then .ok ()
  else .error (.baas
    { code := .INSUFFICIENT_SCOPE
      message := s!"A chave de API nao possui o escopo '{required}'."
      details := [("required", required), ("granted", ",".intercalate key.scopes)] })

def assertScopes (key : ApiKey) : List String → Except Thrown Unit
  | [] => .ok ()
  | scope :: required =>
    match assertScope key scope with
    | .error e => .error e
    | .ok () => assertScopes key required

def demandsSignature (route : Route) (key : ApiKey) : Bool := route.requiresSignature || key.signingRequired

/-- The guard with its service: how keys are looked up, the tolerance, and the
clock as it is read for the window and as it stands when the nonce is claimed. -/
structure ApiKeyGuard where
  runtime : Runtime
  authenticate : String → Except Thrown ApiKey
  nonces : NonceStoreKind
  toleranceSeconds : Nat
  seen : NonceStore
  now : Int
  claimedAt : Int

def ApiKeyGuard.arrival (guard : ApiKeyGuard) (key : ApiKey) (request : IncomingRequest) : Arrival :=
  ⟨key.toAuthenticatedKey, signatureInput request, guard.now, guard.claimedAt⟩

def ApiKeyGuard.verify (guard : ApiKeyGuard) (key : ApiKey) (request : IncomingRequest) :
    Except Thrown Unit × NonceStore :=
  verifySignature guard.runtime guard.nonces guard.toleranceSeconds guard.seen (guard.arrival key request)

def ApiKeyGuard.canActivate (guard : ApiKeyGuard) (route : Route) (request : IncomingRequest) :
    Except Thrown Unit × NonceStore :=
  if route.isPublic then (.ok (), guard.seen)
  else
    match bearer request.authorization with
    | none =>
      (.error (.baas
        { code := .AUTHENTICATION_FAILED
          message := "Informe a chave de API no cabecalho Authorization: Bearer <chave>." }), guard.seen)
    | some rawKey =>
      match guard.authenticate rawKey with
      | .error e => (.error e, guard.seen)
      | .ok key =>
        if demandsSignature route key then
          match guard.verify key request with
          | (.error e, seen) => (.error e, seen)
          | (.ok (), seen) => (assertScopes key route.scopes, seen)
        else (assertScopes key route.scopes, guard.seen)

section Verdicts

variable {runtime : Runtime} {kind : NonceStoreKind} {tol : Nat} {seen : NonceStore}

theorem forgetExpired_none {now : Int} {k : String} (h : seen.get k = none) :
    (forgetExpired seen now).get k = none := by
  unfold forgetExpired
  refine List.foldlRecOn (motive := fun t : NonceStore => t.get k = none) seen.rows _ h fun t ht row _ => ?_
  by_cases hexpired : row.2 ≤ now
  · rw [if_pos hexpired, Table.get_delete, ht, ite_self]
  · rwa [if_neg hexpired]

/-- A nonce that the store has not seen is claimed, except by a store that is
asked to forget it at once and refuses to. -/
theorem claim_unseen {now : Int} {keyId nonce : String} {ttlSeconds : Nat}
    (h : seen.get (composite kind keyId nonce) = none) :
    (claim kind seen now keyId nonce ttlSeconds).1 = .ok true ↔ (kind = .redis → ttlSeconds ≠ 0) := by
  cases kind with
  | redis =>
    have hget : seen.get ("baas:nonce:" ++ keyId ++ ":" ++ nonce) = none := h
    by_cases hzero : ttlSeconds = 0
    · simp [claim, redisClaim, hzero]
    · simp [claim, redisClaim, hzero, hget]
  | inMemory =>
    have hget : (forgetExpired seen now).get (keyId ++ ":" ++ nonce) = none := forgetExpired_none h
    simp [claim, inMemoryClaim, hget]

/-- What a verification checks, all of it. -/
theorem verifySignature_ok_iff {a : Arrival} {secret : String} (hsecret : a.key.signingSecret = some secret)
    (hne : secret ≠ "") :
    (verifySignature runtime kind tol seen a).1 = .ok () ↔ InWindow runtime tol a ∧
    16 ≤ utf16Length a.input.nonce ∧
      (claim kind seen a.claimedAt a.key.id a.input.nonce (tol * 2)).1 = .ok true ∧
        provided a.input = buildSignature runtime secret a.input.toCanonicalRequest := by
  have hfilter : a.key.signingSecret.filter (· ≠ "") = some secret := by simp [hsecret, hne]
  unfold verifySignature InWindow
  rw [hfilter]
  cases hn : runtime.number a.input.timestamp with
  | none => simp
  | some timestamp =>
    by_cases hskew : skew a.now timestamp > tol
    · simp [hskew]
    · by_cases hlength : utf16Length a.input.nonce < 16
      · simp [hskew, hlength]
      · have hwindow : skew a.now timestamp ≤ tol := not_lt.mp hskew
        cases hc : claim kind seen a.claimedAt a.key.id a.input.nonce (tol * 2) with
        | mk r seen' =>
          obtain e | fresh := r
          · simp [hskew, hlength]
          · cases fresh with
            | false => simp [hskew, hlength]
            | true =>
              by_cases hsigned : provided a.input = buildSignature runtime secret a.input.toCanonicalRequest
              · simp [hskew, hlength, hsigned, hwindow, not_lt.mp hlength]
              · simp [hskew, hlength, hsigned]

theorem claim_error {now : Int} {keyId nonce : String} {ttlSeconds : Nat} {e : Thrown}
    (h : (claim kind seen now keyId nonce ttlSeconds).1 = .error e) : ∃ message, e = .failure message := by
  cases kind with
  | redis =>
    simp only [claim, redisClaim] at h
    split at h
    · exact ⟨_, (Except.error.inj h).symm⟩
    · split at h <;> cases h
  | inMemory =>
    simp only [claim, inMemoryClaim] at h
    split at h <;> cases h

def scopeRefusal : Thrown → Bool
  | .baas error => decide (error.code = .INSUFFICIENT_SCOPE)
  | _ => false

theorem verifySignature_error {a : Arrival} {e : Thrown}
    (h : (verifySignature runtime kind tol seen a).1 = .error e) :
    scopeRefusal e = false := by
  unfold verifySignature at h
  cases hs : a.key.signingSecret.filter (· ≠ "") with
  | none =>
    rw [hs] at h
    rw [← Except.error.inj h]
    rfl
  | some secret =>
    rw [hs] at h
    dsimp only at h
    cases hn : runtime.number a.input.timestamp with
    | none =>
      rw [hn] at h
      rw [← Except.error.inj h]
      rfl
    | some timestamp =>
      rw [hn] at h
      dsimp only at h
      split at h
      · rw [← Except.error.inj h]
        rfl
      · split at h
        · rw [← Except.error.inj h]
          rfl
        · cases hc : claim kind seen a.claimedAt a.key.id a.input.nonce (tol * 2) with
          | mk r seen' =>
            rw [hc] at h
            obtain e' | fresh := r
            · obtain ⟨message, hm⟩ := claim_error (congrArg Prod.fst hc)
              rw [← Except.error.inj h, hm]
              rfl
            · cases fresh with
              | false =>
                rw [← Except.error.inj h]
                rfl
              | true =>
                dsimp only at h
                split at h
                · cases h
                · rw [← Except.error.inj h]
                  rfl

theorem assertScopes_error {key : ApiKey} {required : List String} {e : Thrown}
    (h : assertScopes key required = .error e) : scopeRefusal e = true := by
  induction required with
  | nil => cases h
  | cons scope required ih =>
    by_cases hscope : scope ∈ key.scopes
    · rw [assertScopes, assertScope, if_pos hscope] at h
      exact ih h
    · rw [assertScopes, assertScope, if_neg hscope] at h
      rw [← Except.error.inj h]
      rfl

end Verdicts

section Signed

variable {guard : ApiKeyGuard} {route : Route} {request : IncomingRequest} {key : ApiKey} {rawKey : String}

/-- Where the guard demands a signature of an authenticated key, it decides as
the scopes of the key say exactly when the signature passes. -/
theorem canActivate_demanded (hguarded : route.isPublic = false)
    (hbearer : bearer request.authorization = some rawKey)
    (hauth : guard.authenticate rawKey = .ok key) (hdemands : demandsSignature route key = true) :
    (guard.canActivate route request).1 = assertScopes key route.scopes ↔
    (guard.verify key request).1 = .ok () := by
  simp only [ApiKeyGuard.canActivate, hguarded, hbearer, hauth, hdemands, if_true,
    Bool.false_eq_true, if_false]
  cases hv : guard.verify key request with
  | mk r seen =>
    cases r with
    | ok u => simp
    | error e =>
      have hother : scopeRefusal e = false := verifySignature_error (congrArg Prod.fst hv)
      refine ⟨fun h => ?_, fun h => by cases h⟩
      rw [assertScopes_error h.symm] at hother
      cases hother

end Signed

end BaasConnector.Auth.Guard
