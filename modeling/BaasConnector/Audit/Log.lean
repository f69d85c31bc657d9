import BaasConnector.Taxonomy.Status
import Mathlib.Data.List.Sort
import Mathlib.Logic.Function.Basic

namespace BaasConnector.Audit.Log

open BaasConnector.Taxonomy.Status (Environment)

inductive ActorType
  | API_KEY | USER | SYSTEM | PROVIDER
deriving DecidableEq, Repr

def ActorType.text : ActorType → String
  | .API_KEY => "API_KEY"
  | .USER => "USER"
  | .SYSTEM => "SYSTEM"
  | .PROVIDER => "PROVIDER"

inductive AuditOutcome
  | SUCCESS | FAILURE | DENIED
deriving DecidableEq, Repr

def AuditOutcome.text : AuditOutcome → String
  | .SUCCESS => "SUCCESS"
  | .FAILURE => "FAILURE"
  | .DENIED => "DENIED"

/-- What an insert says about a row. The two JSONB columns stand as their text,
an instant is a number of microseconds. -/
structure AuditEntry where
  id : String
  environment : Environment
  occurredAt : Int
  actorType : ActorType
  actorId : Option String
  action : String
  outcome : AuditOutcome
  resourceType : String
  resourceId : Option String
  before : Option String
  after : Option String
  requestId : Option String
deriving DecidableEq, Repr

structure AuditRow (H : Type) extends AuditEntry where
  sequence : Nat
  prevHash : Option H
  rowHash : H
deriving DecidableEq, Repr

/-- The functions of the database that the chain is built from. -/
structure Digest (H : Type) where
  sha256 : String → H
  hex : H → String
  instantText : Int → String

section Formula

variable {H : Type} (d : Digest H)

/-- The columns that the hash covers, as texts. -/
def columns (sequence : Nat) (entry : AuditEntry) : List String :=
  [toString sequence, d.instantText entry.occurredAt, entry.actorType.text, entry.actorId.getD "",
    entry.action, entry.outcome.text, entry.resourceType, entry.resourceId.getD "",
    entry.before.getD "", entry.after.getD "", entry.requestId.getD ""]

def payload (sequence : Nat) (entry : AuditEntry) : String :=
  "|".intercalate (columns d sequence entry)

def chainHash (sequence : Nat) (entry : AuditEntry) (prevHash : Option H) : H :=
  d.sha256 (payload d sequence entry ++ (prevHash.map d.hex).getD "")

end Formula

section Verification

variable {H : Type}

/-- The rows in the order of their sequence. -/
def bySequence (rows : List (AuditRow H)) : List (AuditRow H) :=
  rows.insertionSort fun a b => a.sequence ≤ b.sequence

/-- The row with the highest sequence of an environment, which the trigger reads. -/
def lastOf (environment : Environment) (rows : List (AuditRow H)) : Option (AuditRow H) :=
  (bySequence (rows.filter (·.environment = environment))).getLast?

/-- `compute_audit_chain`: link the new row to the last one and hash it. -/
def computeAuditChain (d : Digest H) (visible : List (AuditRow H)) (sequence : Nat) (entry : AuditEntry) :
    AuditRow H :=
  let prevHash := (lastOf entry.environment visible).map (·.rowHash)
  { entry with sequence, prevHash, rowHash := chainHash d sequence entry prevHash }

structure Divergence where
  id : String
  sequence : Nat
  occurredAt : Int
deriving DecidableEq, Repr

structure AuditVerification where
  checkedCount : Nat
  divergent : Option Divergence
deriving DecidableEq, Repr

def AuditRow.divergence (row : AuditRow H) : Divergence := ⟨row.id, row.sequence, row.occurredAt⟩

structure Window where
  environment : String
  start : Int
  stop : Int
deriving DecidableEq, Repr

def Window.selects (window : Window) (row : AuditRow H) : Bool :=
  decide (row.environment.text = window.environment) && decide (window.start ≤ row.occurredAt) &&
    decide (row.occurredAt ≤ window.stop)

def Window.selection (window : Window) (rows : List (AuditRow H)) : List (AuditRow H) :=
  bySequence (rows.filter window.selects)

variable [DecidableEq H] (d : Digest H)

/-- The loop of `verify_audit_chain`. The row before is `none` at the first row,
whose link is not asked for. -/
def verifyLoop : Option (AuditRow H) → Nat → List (AuditRow H) → AuditVerification
  | _, count, [] => ⟨count, none⟩
  | previous, count, row :: rest =>
    if previous.any fun p => row.prevHash ≠ some p.rowHash then
      ⟨count + 1, some row.divergence⟩
    else if chainHash d row.sequence row.toAuditEntry row.prevHash ≠ row.rowHash then
      ⟨count + 1, some row.divergence⟩
    else verifyLoop (some row) (count + 1) rest

def verifyAuditChain (rows : List (AuditRow H)) (window : Window) : AuditVerification :=
  verifyLoop d none 0 (window.selection rows)

end Verification

/-- A database session inside a transaction: the sequence drawn for the row
under way, and the rows inserted so far. -/
structure Session (H : Type) where
  drawn : Option Nat := none
  rows : List (AuditRow H) := []

structure Database (H : Type) where
  nextSequence : Nat
  rows : List (AuditRow H)
  sessions : Nat → Session H

inductive Action
  | draw (session : Nat)
  | insert (session : Nat) (entry : AuditEntry)
  | commit (session : Nat)
  | rollback (session : Nat)
deriving DecidableEq, Repr

section Run

variable {H : Type} (d : Digest H)

def Database.empty : Database H := ⟨1, [], fun _ => {}⟩

/-- What a statement of the session sees: the committed rows and its own. -/
def Database.visible (s : Database H) (session : Nat) : List (AuditRow H) :=
  s.rows ++ (s.sessions session).rows

def Database.setSession (s : Database H) (session : Nat) (state : Session H) : Database H :=
  { s with sessions := Function.update s.sessions session state }

/-- An insert draws its sequence first; the trigger then reads, computes and
stores the row. A drawn sequence is never given back. -/
def step (s : Database H) : Action → Option (Database H)
  | .draw session =>
    match (s.sessions session).drawn with
    | some _ => none
    | none =>
      some { s.setSession session { s.sessions session with drawn := some s.nextSequence } with
        nextSequence := s.nextSequence + 1 }
  | .insert session entry =>
    match (s.sessions session).drawn with
    | none => none
    | some sequence =>
      let row := computeAuditChain d (s.visible session) sequence entry
      some (s.setSession session { drawn := none, rows := (s.sessions session).rows ++ [row] })
  | .commit session =>
    some { s.setSession session {} with rows := s.rows ++ (s.sessions session).rows }
  | .rollback session => some (s.setSession session {})

/-- The database after these actions, if they can be taken in this order. -/
def after (actions : List Action) : Option (Database H) :=
  actions.foldl (fun s action => s.bind (step d · action)) (some .empty)

end Run

end BaasConnector.Audit.Log
