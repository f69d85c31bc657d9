import Mathlib.Data.List.Basic

namespace BaasConnector.Taxonomy.Errors

inductive BaasErrorCode
  | VALIDATION_ERROR | MISSING_REQUIRED_FIELD | INVALID_TAX_ID | INVALID_PIX_KEY | INVALID_AMOUNT
  | INVALID_EMV_PAYLOAD | INVALID_END_TO_END_ID | INVALID_CURSOR | CURRENCY_MISMATCH
  | MISSING_IDEMPOTENCY_KEY | AUTHENTICATION_FAILED | INVALID_API_KEY | API_KEY_REVOKED
  | SIGNATURE_INVALID | SIGNATURE_EXPIRED | NONCE_REPLAYED | SESSION_EXPIRED | MFA_REQUIRED
  | AUTHORIZATION_DENIED | INSUFFICIENT_SCOPE | ENVIRONMENT_MISMATCH | RESOURCE_NOT_FOUND
  | ACCOUNT_NOT_FOUND | TRANSACTION_NOT_FOUND | PIX_KEY_NOT_FOUND | CHARGE_NOT_FOUND
  | CONNECTION_NOT_FOUND | PROVIDER_NOT_FOUND | RESOURCE_ALREADY_EXISTS | PIX_KEY_ALREADY_EXISTS
  | IDEMPOTENCY_KEY_REUSED | IDEMPOTENT_REQUEST_IN_PROGRESS | INVALID_STATE_TRANSITION
  | CONCURRENT_MODIFICATION | INSUFFICIENT_FUNDS | ACCOUNT_NOT_ACTIVE | ACCOUNT_BLOCKED
  | LIMIT_EXCEEDED | OUTSIDE_OPERATING_HOURS | CHARGE_EXPIRED | CHARGE_ALREADY_PAID
  | REFUND_WINDOW_EXPIRED | REFUND_AMOUNT_EXCEEDS_ORIGINAL | TRANSACTION_NOT_REVERSIBLE
  | SELF_TRANSFER_NOT_ALLOWED | LEDGER_UNBALANCED | ONBOARDING_REQUIRED | ONBOARDING_PENDING
  | COMPLIANCE_REJECTED | SANCTIONS_BLOCK | DOCUMENT_REQUIRED | PROVIDER_UNAVAILABLE
  | PROVIDER_TIMEOUT | PROVIDER_RATE_LIMITED | PROVIDER_REJECTED | PROVIDER_INTERNAL_ERROR
  | PROVIDER_CONTRACT_VIOLATION | PROVIDER_CREDENTIALS_INVALID | PROVIDER_CIRCUIT_OPEN
  | PROVIDER_OUTCOME_UNKNOWN | CAPABILITY_NOT_SUPPORTED | CAPABILITY_CONSTRAINT_VIOLATED
  | RATE_LIMITED | INTERNAL_ERROR | NOT_IMPLEMENTED
deriving DecidableEq, Repr

structure BaasError where
  code : BaasErrorCode
  message : String
  details : List (String × String) := []
deriving DecidableEq, Repr

/-- What a step of the connector can throw: an error of the canonical catalogue,
the outcome-unknown error of a write whose answer was lost, or anything else a
driver or a missing row raises. -/
inductive Thrown
  | baas (error : BaasError)
  | outcomeUnknown (error : BaasError)
  | failure (message : String)
deriving DecidableEq, Repr

def Thrown.isOutcomeUnknown : Thrown → Bool
  | .outcomeUnknown _ => true
  | _ => false

def httpStatus : BaasErrorCode → Nat
  | .INVALID_CURSOR | .MISSING_IDEMPOTENCY_KEY => 400
  | .AUTHENTICATION_FAILED | .INVALID_API_KEY | .API_KEY_REVOKED | .SIGNATURE_INVALID |
    .SIGNATURE_EXPIRED | .NONCE_REPLAYED | .SESSION_EXPIRED | .MFA_REQUIRED => 401
  | .AUTHORIZATION_DENIED | .INSUFFICIENT_SCOPE | .ENVIRONMENT_MISMATCH | .SANCTIONS_BLOCK =>
    403
  | .RESOURCE_NOT_FOUND | .ACCOUNT_NOT_FOUND | .TRANSACTION_NOT_FOUND | .PIX_KEY_NOT_FOUND |
    .CHARGE_NOT_FOUND | .CONNECTION_NOT_FOUND | .PROVIDER_NOT_FOUND => 404
  | .RESOURCE_ALREADY_EXISTS | .PIX_KEY_ALREADY_EXISTS | .IDEMPOTENT_REQUEST_IN_PROGRESS |
    .INVALID_STATE_TRANSITION | .CONCURRENT_MODIFICATION => 409
  | .LEDGER_UNBALANCED | .INTERNAL_ERROR => 500
  | .CAPABILITY_NOT_SUPPORTED | .NOT_IMPLEMENTED => 501
  | .PROVIDER_INTERNAL_ERROR | .PROVIDER_REJECTED | .PROVIDER_CONTRACT_VIOLATION |
    .PROVIDER_CREDENTIALS_INVALID => 502
  | .PROVIDER_UNAVAILABLE | .PROVIDER_RATE_LIMITED | .PROVIDER_CIRCUIT_OPEN => 503
  | .PROVIDER_TIMEOUT => 504
  | .PROVIDER_OUTCOME_UNKNOWN => 202
  | .RATE_LIMITED => 429
  | _ => 422

def deterministicCodes : List BaasErrorCode :=
  [.VALIDATION_ERROR, .INVALID_TAX_ID, .INVALID_PIX_KEY, .INVALID_AMOUNT, .INSUFFICIENT_FUNDS,
    .ACCOUNT_NOT_ACTIVE, .ACCOUNT_BLOCKED, .CAPABILITY_NOT_SUPPORTED,
    .CAPABILITY_CONSTRAINT_VIOLATED, .REFUND_WINDOW_EXPIRED, .REFUND_AMOUNT_EXCEEDS_ORIGINAL,
    .CHARGE_EXPIRED, .INSUFFICIENT_SCOPE]

def isDeterministic (error : BaasError) : Bool := decide (error.code ∈ deterministicCodes)

end BaasConnector.Taxonomy.Errors
