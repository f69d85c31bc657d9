import BaasConnector.Audit.Log
import BaasConnector.Lib.Sorting
import BaasConnector.Lib.History

namespace BaasConnector.Audit.Chain

open BaasConnector.Lib.Chains BaasConnector.Lib.History BaasConnector.Audit.Log

variable {H : Type} (d : Digest H)

/-- The second row was inserted over the first one. -/
def Over (a b : AuditRow H) : Prop := b.prevHash = some a.rowHash

instance [DecidableEq H] (a b : AuditRow H) : Decidable (Over a b) :=
  inferInstanceAs (Decidable (b.prevHash = some a.rowHash))

def Hashed (row : AuditRow H) : Prop :=
  chainHash d row.sequence row.toAuditEntry row.prevHash = row.rowHash

theorem computeAuditChain_hashed (visible : List (AuditRow H)) (sequence : Nat) (entry : AuditEntry) :
    Hashed d (computeAuditChain d visible sequence entry) := rfl

section Verification

variable {d} [DecidableEq H]

theorem verifyLoop_clean {previous : Option (AuditRow H)} {count : Nat} {rows : List (AuditRow H)} :
    (verifyLoop d previous count rows).divergent = none ↔
      (previous.toList ++ rows).IsChain Over ∧ ∀ row ∈ rows, Hashed d row := by
  induction rows generalizing previous count with
  | nil => cases previous <;> simp [verifyLoop]
  | cons row rest ih =>
    have hrest : ∀ count, (verifyLoop d (some row) count rest).divergent = none ↔
        (row :: rest).IsChain Over ∧ ∀ r ∈ rest, Hashed d r := fun _ => ih
    have hchain : (previous.toList ++ row :: rest).IsChain Over ↔
        (∀ p ∈ previous, Over p row) ∧ (row :: rest).IsChain Over := by
      cases previous <;> simp [List.isChain_cons_cons]
    have hlink : (previous.any fun p => row.prevHash ≠ some p.rowHash) = true ↔
        ¬ ∀ p ∈ previous, Over p row := by
      cases previous <;> simp [Over]
    rw [verifyLoop, hchain, List.forall_mem_cons]
    by_cases ho : ∀ p ∈ previous, Over p row
    · rw [if_neg (fun h => hlink.mp h ho)]
      by_cases hh : Hashed d row
      · have hhash : ¬ chainHash d row.sequence row.toAuditEntry row.prevHash ≠ row.rowHash :=
          fun h => h hh
        rw [if_neg hhash, hrest]
        tauto
      · have hhash : chainHash d row.sequence row.toAuditEntry row.prevHash ≠ row.rowHash := hh
        rw [if_pos hhash]
        simp only [reduceCtorEq, false_iff]
        exact fun h => hh h.2.1
    · rw [if_pos (hlink.mpr ho)]
      simp only [reduceCtorEq, false_iff]
      exact fun h => ho h.1.1

/-- The verification is clean exactly when the rows of the window follow one
another and their hashes are right. -/
theorem verify_clean {rows : List (AuditRow H)} {window : Window} :
    (verifyAuditChain d rows window).divergent = none ↔
      (window.selection rows).IsChain Over ∧ ∀ row ∈ window.selection rows, Hashed d row :=
  verifyLoop_clean

end Verification

/-- Every row that is stored, or waits for its commit, has the hash of its columns. -/
def Sealed (s : Database H) : Prop :=
  (∀ row ∈ s.rows, Hashed d row) ∧ ∀ session, ∀ row ∈ (s.sessions session).rows, Hashed d row

section Step

variable {d} {s s' : Database H} {action : Action}

/-- What an action does to the database. -/
inductive Moves (d : Digest H) (s : Database H) : Action → Database H → Prop
  | draw (session : Nat) (hdrawn : (s.sessions session).drawn = none) :
    Moves d s (.draw session)
      { s.setSession session { s.sessions session with drawn := some s.nextSequence } with
        nextSequence := s.nextSequence + 1 }
  | insert (session : Nat) (entry : AuditEntry) (sequence : Nat)
    (hdrawn : (s.sessions session).drawn = some sequence) :
    Moves d s (.insert session entry)
      (s.setSession session
        { drawn := none
          rows := (s.sessions session).rows ++
            [computeAuditChain d (s.visible session) sequence entry] })
  | commit (session : Nat) :
    Moves d s (.commit session) { s.setSession session {} with rows := s.rows ++ (s.sessions session).rows }
  | rollback (session : Nat) : Moves d s (.rollback session) (s.setSession session {})

theorem step_moves (h : step d s action = some s') : Moves d s action s' := by
  cases action with
  | draw session =>
    cases hd : (s.sessions session).drawn with
    | none =>
      simp only [step, hd, Option.some.injEq] at h
      exact h ▸ .draw session hd
    | some sequence => simp [step, hd] at h
  | insert session entry =>
    cases hd : (s.sessions session).drawn with
    | none => simp [step, hd] at h
    | some sequence =>
      simp only [step, hd, Option.some.injEq] at h
      exact h ▸ .insert session entry sequence hd
  | commit session =>
    simp only [step, Option.some.injEq] at h
    exact h ▸ .commit session
  | rollback session =>
    simp only [step, Option.some.injEq] at h
    exact h ▸ .rollback session

@[simp] theorem setSession_rows (session : Nat) (state : Session H) :
    (s.setSession session state).rows = s.rows := rfl

@[simp] theorem setSession_nextSequence (session : Nat) (state : Session H) :
    (s.setSession session state).nextSequence = s.nextSequence := rfl

theorem setSession_get (session other : Nat) (state : Session H) :
    (s.setSession session state).sessions other = if other = session then state else s.sessions other := by
  simp only [Database.setSession, Function.update_apply]

/-- A property of each session is kept where it is kept by the one that moves. -/
theorem forall_setSession {P : Nat → Session H → Prop} (session : Nat) (state : Session H)
    (h : ∀ other, P other (s.sessions other)) (hs : P session state) (other : Nat) :
    P other ((s.setSession session state).sessions other) := by
  rw [setSession_get]
  by_cases ho : other = session
  · rw [if_pos ho, ho]
    exact hs
  · rw [if_neg ho]
    exact h other

theorem after_append (actions : List Action) (action : Action) :
    after d (actions ++ [action]) = (after d actions).bind (step d · action) := by
  rw [after, List.foldl_append]
  rfl

/-- An invariant of every step holds after every run. -/
theorem after_induction {I : Database H → Prop} (hempty : I .empty)
    (hstep : ∀ s action s', I s → Moves d s action s' → I s') (actions : List Action)
    (hs : after d actions = some s) : I s := by
  induction actions using List.reverseRecOn generalizing s with
  | nil => exact Option.some.inj hs ▸ hempty
  | append_singleton actions action ih =>
    rw [after_append, Option.bind_eq_some_iff] at hs
    obtain ⟨before, hbefore, hlast⟩ := hs
    exact hstep before action s (ih hbefore) (step_moves hlast)

theorem sealed_step (h : Sealed d s) (hm : Moves d s action s') : Sealed d s' := by
  have hsession : ∀ session (state : Session H), (∀ row ∈ state.rows, Hashed d row) →
      ∀ other, ∀ row ∈ ((s.setSession session state).sessions other).rows, Hashed d row :=
    fun session state => forall_setSession (P := fun _ state => ∀ row ∈ state.rows, Hashed d row)
      session state h.2
  cases hm with
  | draw session hdrawn => exact ⟨h.1, hsession session _ (h.2 session)⟩
  | insert session entry sequence hdrawn =>
    refine ⟨h.1, hsession session _ fun row hrow => ?_⟩
    obtain hold | hnew := List.mem_append.mp hrow
    · exact h.2 session row hold
    · rw [List.mem_singleton.mp hnew]
      exact computeAuditChain_hashed d _ sequence entry
  | commit session =>
    refine ⟨fun row hrow => ?_, hsession session _ (by simp)⟩
    exact (List.mem_append.mp hrow).elim (h.1 row) (h.2 session row)
  | rollback session => exact ⟨h.1, hsession session _ (by simp)⟩

theorem after_sealed {actions : List Action} (hs : after d actions = some s) : Sealed d s :=
  after_induction ⟨by simp [Database.empty], by simp [Database.empty]⟩
    (fun _ _ _ => sealed_step) actions hs

end Step

end BaasConnector.Audit.Chain
