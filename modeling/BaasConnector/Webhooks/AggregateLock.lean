import Mathlib.Logic.Function.Basic
import Mathlib.Tactic.Common

namespace BaasConnector.Webhooks.AggregateLock

def lockTtlMs : Int := 30000

/-- How far a call of `run` has come: its SET not executed yet, answered with OK,
the task running, the task over, and nothing left to do. -/
inductive Phase
  | asking | granted | running | completed | done
deriving DecidableEq, Repr

/-- One key of Redis, and the calls of `run` on it by their tokens. A call was
refreshed by its SET, and then by each tick within 30 seconds of the last refresh. -/
structure State where
  now : Int
  key : Option (Nat × Int)
  phase : Nat → Phase
  refreshedAt : Nat → Int

def State.initial : State := ⟨0, none, fun _ => .asking, fun _ => 0⟩

inductive Action
  | elapse (ms : Nat)
  | set (token : Nat)
  | heard (token : Nat)
  | unheard (token : Nat)
  | pexpire (token : Nat)
  | complete (token : Nat)
  | release (token : Nat)
  | releaseFailed (token : Nat)
deriving DecidableEq, Repr

def Action.by : Action → Option Nat
  | .elapse _ => none
  | .set token | .heard token | .unheard token | .pexpire token => some token
  | .complete token | .release token | .releaseFailed token => some token

namespace State

variable (s : State) (token : Nat)

/-- The value of the key, unless it has expired. -/
def current : Option Nat :=
  match s.key with
  | some (value, expiresAt) => if s.now < expiresAt then some value else none
  | none => none

/-- The last refresh of the call is 30 seconds old. -/
def Lapsed : Prop := s.refreshedAt token + 30000 ≤ s.now

instance : Decidable (s.Lapsed token) := inferInstanceAs (Decidable (_ ≤ _))

def enter (phase : Phase) : State := { s with phase := Function.update s.phase token phase }

def elapse (ms : Nat) : State := { s with now := s.now + ms }

/-- SET with NX and PX. -/
def set : State :=
  if s.phase token = .asking then
    if s.current = none then
      { s.enter token .granted with
        key := some (token, s.now + lockTtlMs)
        refreshedAt := Function.update s.refreshedAt token s.now }
    else s.enter token .done
  else s

def heard : State := if s.phase token = .granted then s.enter token .running else s

/-- The answer to the SET is lost, and the task is not run. -/
def unheard : State := if s.phase token = .granted then s.enter token .done else s

def refreshed : Nat → Int :=
  if s.Lapsed token then s.refreshedAt else Function.update s.refreshedAt token s.now

/-- A tick of the watchdog reaches Redis. -/
def pexpire : State :=
  if s.phase token = .running ∨ s.phase token = .completed then
    { s with key := s.current.map fun value => (value, s.now + lockTtlMs), refreshedAt := s.refreshed token }
  else s

def complete : State := if s.phase token = .running then s.enter token .completed else s

/-- The release script: a compare and a delete. -/
def release : State :=
  if s.phase token = .completed then
    { s.enter token .done with key := if s.current = some token then none else s.key }
  else s

def releaseFailed : State := if s.phase token = .completed then s.enter token .done else s

end State

def step (s : State) : Action → State
  | .elapse ms => s.elapse ms
  | .set token => s.set token
  | .heard token => s.heard token
  | .unheard token => s.unheard token
  | .pexpire token => s.pexpire token
  | .complete token => s.complete token
  | .release token => s.release token
  | .releaseFailed token => s.releaseFailed token

def run (actions : List Action) : State := actions.foldl step .initial

variable {s : State}

theorem current_eq_some {value : Nat} :
    s.current = some value ↔ ∃ expiresAt, s.key = some (value, expiresAt) ∧ s.now < expiresAt := by
  unfold State.current
  split
  · next held expiresAt hkey => simp [hkey, and_comm]
  · next hkey => simp [hkey]

/-- A step of a call leaves a key with another call's token as it is. -/
def OwnerOnly (s : State) (action : Action) : Prop :=
  ∀ token value, action.by = some token → s.current = some value → value ≠ token → (step s action).key = s.key

/-- Setting, hearing and releasing touch no other call's key. -/
theorem ownerOnly_of_not_pexpire {action : Action} (hnot : ∀ token, action ≠ .pexpire token) :
    OwnerOnly s action := by
  intro token value hby hcurrent hvalue
  cases action with
  | elapse ms => cases hby
  | set token' =>
    simp only [step, State.set, hcurrent, reduceCtorEq, if_false]
    split <;> rfl
  | heard token' =>
    simp only [step, State.heard]
    split <;> rfl
  | unheard token' =>
    simp only [step, State.unheard]
    split <;> rfl
  | pexpire token' => exact absurd rfl (hnot token')
  | complete token' =>
    simp only [step, State.complete]
    split <;> rfl
  | release token' =>
    obtain rfl := Option.some.inj hby
    have hother : ¬ s.current = some token' := by
      rw [hcurrent]
      exact fun heq => hvalue (Option.some.inj heq)
    simp only [step, State.release, if_neg hother]
    split <;> rfl
  | releaseFailed token' =>
    simp only [step, State.releaseFailed]
    split <;> rfl

end BaasConnector.Webhooks.AggregateLock
