import BaasConnector.Lib.Keyed
import BaasConnector.Connector.Records

namespace BaasConnector.Accounts.OnboardingCases

open BaasConnector.Lib.Keyed BaasConnector.Taxonomy.Status BaasConnector.Connector.Columns
open BaasConnector.Connector.Records (StatusChangeResult guardStatus)

inductive RequirementCode
  | SELFIE_LIVENESS | IDENTITY_FRONT | IDENTITY_BACK | PROOF_OF_ADDRESS | PROOF_OF_INCOME
  | TAX_ID_DOCUMENT | ARTICLES_OF_INCORPORATION | LATEST_AMENDMENT | BOARD_ELECTION_MINUTES
  | CNPJ_REGISTRATION_CARD | OWNERSHIP_CHART | UBO_DECLARATION | FINANCIAL_STATEMENTS
  | POWER_OF_ATTORNEY | REPRESENTATIVE_KYC | ADDITIONAL_INFORMATION | PHONE_VERIFICATION
  | EMAIL_VERIFICATION | TERMS_ACCEPTANCE
deriving DecidableEq, Repr

def RequirementCode.text : RequirementCode → String
  | .SELFIE_LIVENESS => "SELFIE_LIVENESS"
  | .IDENTITY_FRONT => "IDENTITY_FRONT"
  | .IDENTITY_BACK => "IDENTITY_BACK"
  | .PROOF_OF_ADDRESS => "PROOF_OF_ADDRESS"
  | .PROOF_OF_INCOME => "PROOF_OF_INCOME"
  | .TAX_ID_DOCUMENT => "TAX_ID_DOCUMENT"
  | .ARTICLES_OF_INCORPORATION => "ARTICLES_OF_INCORPORATION"
  | .LATEST_AMENDMENT => "LATEST_AMENDMENT"
  | .BOARD_ELECTION_MINUTES => "BOARD_ELECTION_MINUTES"
  | .CNPJ_REGISTRATION_CARD => "CNPJ_REGISTRATION_CARD"
  | .OWNERSHIP_CHART => "OWNERSHIP_CHART"
  | .UBO_DECLARATION => "UBO_DECLARATION"
  | .FINANCIAL_STATEMENTS => "FINANCIAL_STATEMENTS"
  | .POWER_OF_ATTORNEY => "POWER_OF_ATTORNEY"
  | .REPRESENTATIVE_KYC => "REPRESENTATIVE_KYC"
  | .ADDITIONAL_INFORMATION => "ADDITIONAL_INFORMATION"
  | .PHONE_VERIFICATION => "PHONE_VERIFICATION"
  | .EMAIL_VERIFICATION => "EMAIL_VERIFICATION"
  | .TERMS_ACCEPTANCE => "TERMS_ACCEPTANCE"

inductive RequirementStatus
  | PENDING | SUBMITTED | IN_ANALYSIS | ACCEPTED | REJECTED | WAIVED | EXPIRED
deriving DecidableEq, Repr

def rejectionCodes : List String :=
  ["DOCUMENT_ILLEGIBLE", "DOCUMENT_EXPIRED", "DOCUMENT_TAMPERED", "FACE_MATCH_FAILED",
    "LIVENESS_FAILED", "DATA_MISMATCH", "TAX_ID_IRREGULAR", "UNDERAGE", "SANCTIONS_MATCH",
    "PEP_RESTRICTED", "ADVERSE_MEDIA", "PROHIBITED_ACTIVITY", "FRAUD_SUSPICION",
    "DUPLICATE_HOLDER", "UBO_NOT_IDENTIFIED", "RISK_APPETITE", "PROVIDER_POLICY"]

/-- An id that `newId` mints: a prefix, an underscore and a ULID. -/
@[ext] structure RequirementId where
  text : String
  plain : ':' ∉ text.toList

instance : DecidableEq RequirementId := fun _ _ => decidable_of_iff' _ RequirementId.ext_iff

structure RequirementRecord where
  id : RequirementId
  caseId : String
  code : RequirementCode
  status : RequirementStatus
  label : String
deriving DecidableEq

def RequirementRecord.key (r : RequirementRecord) : String × RequirementCode := (r.caseId, r.code)

structure OnboardingCase where
  id : String
  environment : Environment
  status : OnboardingStatus
  lastEventAt : Option Int
  rejectionCode : Option String
  rejectionMessage : Option String
  providerRejectionCode : Option String
  decidedAt : Option Int
deriving DecidableEq, Repr

structure OnboardingRecord extends OnboardingCase where
  requirements : List RequirementRecord
deriving DecidableEq

structure Demand where
  code : RequirementCode
  label : String
deriving DecidableEq, Repr

/-- The input of `applyStatusChange`, with the ids it would mint, one a demand; of
the callback `withinTransaction`, only whether it throws. -/
structure StatusChange where
  environment : Environment
  caseId : String
  toStatus : OnboardingStatus
  rejectionCode : Option String
  rejectionMessage : Option String
  providerRejectionCode : Option String
  requirements : Option (List Demand)
  occurredAt : Int
  withinTransactionThrows : Bool
  newId : Nat → RequirementId

inductive Reply
  | change (result : StatusChangeResult OnboardingStatus OnboardingRecord)
  | thrown

def decided (status : OnboardingStatus) : Bool := status = .APPROVED || status = .REJECTED

def StatusChange.guarded (c : StatusChange) (row : OnboardingCase) :=
  guardStatus onboardingTransitions onboardingRanks row.status c.toStatus c.occurredAt row.lastEventAt

namespace Prisma

/-- The requirements of all cases, under the unique index on the case and the
code; no row names a representative, so the index's third column is empty. -/
structure RequirementTable where
  rows : List RequirementRecord
  unique : (rows.map RequirementRecord.key).Nodup

def RequirementTable.insert (t : RequirementTable) (r : RequirementRecord) : Option RequirementTable :=
  if h : r.key ∈ t.rows.map RequirementRecord.key then none
  else some
    { rows := t.rows ++ [r]
      unique := by
        rw [List.map_append]
        exact t.unique.append (List.nodup_singleton _) (by simpa using h) }

theorem keys_of_update (rows : List RequirementRecord) (p : RequirementRecord → Bool)
    (status : RequirementStatus) :
    (rows.map fun r => if p r then { r with status := status } else r).map RequirementRecord.key =
      rows.map RequirementRecord.key := by
  rw [List.map_map]
  refine List.map_congr_left fun r _ => ?_
  rw [Function.comp_apply]
  split
  · rfl
  · rfl

def RequirementTable.updateMany (t : RequirementTable) (p : RequirementRecord → Bool)
    (status : RequirementStatus) : RequirementTable where
  rows := t.rows.map fun r => if p r then { r with status := status } else r
  unique := by
    rw [keys_of_update]
    exact t.unique

structure Database where
  cases : Rows String OnboardingCase (·.id)
  requirements : RequirementTable

def Database.requirementsOf (d : Database) (caseId : String) : List RequirementRecord :=
  d.requirements.rows.filter (·.caseId = caseId)

/-- The row is looked up by an id made of the case and the code, and created
under a minted one. -/
def upsert (caseId : String) (id : RequirementId) (demand : Demand) (t : RequirementTable) :
    Option RequirementTable :=
  if t.rows.any (·.id.text = caseId ++ ":" ++ demand.code.text) then some t
  else if overflows 255 demand.label then none
  else t.insert ⟨id, caseId, demand.code, .PENDING, varchar 255 demand.label⟩

def upsertAll (caseId : String) (newId : Nat → RequirementId) :
    Nat → List Demand → RequirementTable → Option RequirementTable
  | _, [], t => some t
  | k, demand :: demands, t =>
    (upsert caseId (newId k) demand t).bind (upsertAll caseId newId (k + 1) demands)

def syncRequirements (caseId : String) (newId : Nat → RequirementId) (requirements : List Demand)
    (t : RequirementTable) : Option RequirementTable :=
  let pending := requirements.map (·.code)
  upsertAll caseId newId 0 requirements
    (t.updateMany (fun r => r.caseId = caseId && r.status = .PENDING && !pending.contains r.code)
      .ACCEPTED)

def written (c : StatusChange) (row : OnboardingCase) : OnboardingCase :=
  { row with
    status := c.toStatus
    rejectionCode := c.rejectionCode.or row.rejectionCode
    rejectionMessage := (nullable 1024 c.rejectionMessage).or row.rejectionMessage
    providerRejectionCode := (nullable 64 c.providerRejectionCode).or row.providerRejectionCode
    lastEventAt := some c.occurredAt
    decidedAt := if decided c.toStatus then some c.occurredAt else row.decidedAt }

def refused (c : StatusChange) : Bool :=
  !c.rejectionCode.all rejectionCodes.contains || overflows 1024 (c.rejectionMessage.getD "") ||
    overflows 64 (c.providerRejectionCode.getD "")

def synced (c : StatusChange) (t : RequirementTable) : Option RequirementTable :=
  c.requirements.elim (some t) fun requirements =>
    syncRequirements c.caseId c.newId requirements t

/-- What a statement or the callback throws rolls the transaction back. -/
def Database.applyStatusChange (d : Database) (c : StatusChange) : Reply × Database :=
  match d.cases.search
      fun row => decide (row.environment = c.environment) && decide (row.id = c.caseId) with
  | none => (.change (.rejected .not_found none), d)
  | some row =>
    match c.guarded row with
    | some reason => (.change (.rejected reason (some row.status)), d)
    | none =>
      if refused c then (.thrown, d)
      else
        match synced c d.requirements with
        | none => (.thrown, d)
        | some requirements =>
          if c.withinTransactionThrows then (.thrown, d)
          else
            let d' := Database.mk (d.cases.put (written c row)) requirements
            (.change (.applied ⟨written c row, d'.requirementsOf c.caseId⟩), d')

end Prisma

namespace InMemory

structure Memory where
  rows : Rows String OnboardingRecord (·.id)

def accept (pending : List RequirementCode) (r : RequirementRecord) : RequirementRecord :=
  if !pending.contains r.code && r.status = .PENDING then { r with status := .ACCEPTED } else r

def pushAll (caseId : String) (newId : Nat → RequirementId) :
    Nat → List Demand → List RequirementRecord → List RequirementRecord
  | _, [], rows => rows
  | k, demand :: demands, rows =>
    pushAll caseId newId (k + 1) demands
      (if rows.any (·.code = demand.code) then rows
        else rows ++ [⟨newId k, caseId, demand.code, .PENDING, demand.label⟩])

def syncRequirements (caseId : String) (newId : Nat → RequirementId) (requirements : List Demand)
    (rows : List RequirementRecord) : List RequirementRecord :=
  let pending := requirements.map (·.code)
  pushAll caseId newId 0 requirements (rows.map (accept pending))

def written (c : StatusChange) (row : OnboardingRecord) : OnboardingRecord :=
  { row with
    status := c.toStatus
    rejectionCode := c.rejectionCode.or row.rejectionCode
    rejectionMessage := c.rejectionMessage.or row.rejectionMessage
    providerRejectionCode := c.providerRejectionCode.or row.providerRejectionCode
    lastEventAt := some c.occurredAt
    decidedAt := if decided c.toStatus then some c.occurredAt else row.decidedAt
    requirements := c.requirements.elim row.requirements fun requirements =>
      syncRequirements row.id c.newId requirements row.requirements }

/-- The record is changed before the callback runs and stays changed when it
throws. -/
def Memory.applyStatusChange (m : Memory) (c : StatusChange) : Reply × Memory :=
  match (m.rows.get c.caseId).filter fun row => row.environment = c.environment with
  | none => (.change (.rejected .not_found none), m)
  | some row =>
    match c.guarded row.toOnboardingCase with
    | some reason => (.change (.rejected reason (some row.status)), m)
    | none =>
      (if c.withinTransactionThrows then .thrown else .change (.applied (written c row)),
        ⟨m.rows.put (written c row)⟩)

def Memory.requirementsOf (m : Memory) (caseId : String) : List RequirementRecord :=
  (m.rows.get caseId).elim [] (·.requirements)

end InMemory

end BaasConnector.Accounts.OnboardingCases
