import Mathlib.Logic.Basic

namespace BaasConnector.Lib.Effects

/-- A program that talks to its surroundings through calls. Each call `q` is
answered by a value of type `A q` or by a thrown `ε`, and the program resumes
with that reply. -/
inductive Prog (Q : Type) (A : Q → Type) (ε α : Type) : Type
  | pure (a : α)
  | throw (e : ε)
  | call (q : Q) (k : Except ε (A q) → Prog Q A ε α)

variable {Q : Type} {A : Q → Type} {ε α β γ W : Type}

namespace Prog

def bind : Prog Q A ε α → (α → Prog Q A ε β) → Prog Q A ε β
  | .pure a, f => f a
  | .throw e, _ => .throw e
  | .call q k, f => .call q (fun r => (k r).bind f)

def tryCatch : Prog Q A ε α → (ε → Prog Q A ε α) → Prog Q A ε α
  | .pure a, _ => .pure a
  | .throw e, h => h e
  | .call q k, h => .call q (fun r => (k r).tryCatch h)

instance : Monad (Prog Q A ε) where
  pure := .pure
  bind := .bind

instance : MonadExceptOf ε (Prog Q A ε) where
  throw := .throw
  tryCatch := .tryCatch

def ofExcept : Except ε α → Prog Q A ε α
  | .ok a => .pure a
  | .error e => .throw e

/-- Run a program and hand back what it threw instead of throwing it. -/
def attempt : Prog Q A ε α → Prog Q A ε (Except ε α)
  | .pure a => .pure (.ok a)
  | .throw e => .pure (.error e)
  | .call q k => .call q (fun r => (k r).attempt)

/-- Issue one call and return its answer. -/
def perform (q : Q) : Prog Q A ε (A q) := .call q ofExcept

@[simp] theorem pure_eq (a : α) : (Pure.pure a : Prog Q A ε α) = .pure a := rfl

@[simp] theorem bind_eq (p : Prog Q A ε α) (f : α → Prog Q A ε β) : p >>= f = p.bind f := rfl

@[simp] theorem throw_eq (e : ε) : (MonadExcept.throw e : Prog Q A ε α) = .throw e := rfl

@[simp] theorem throwThe_eq (e : ε) : (throwThe ε e : Prog Q A ε α) = .throw e := rfl

@[simp] theorem tryCatch_eq (p : Prog Q A ε α) (h : ε → Prog Q A ε α) :
    MonadExcept.tryCatch p h = p.tryCatch h := rfl

@[simp] theorem tryCatchThe_eq (p : Prog Q A ε α) (h : ε → Prog Q A ε α) :
    tryCatchThe ε p h = p.tryCatch h := rfl

@[simp] theorem pure_bind (a : α) (f : α → Prog Q A ε β) : (Prog.pure a).bind f = f a := rfl

@[simp] theorem throw_bind (e : ε) (f : α → Prog Q A ε β) : (Prog.throw e).bind f = .throw e := rfl

@[simp] theorem pure_attempt (a : α) :
    (.pure a : Prog Q A ε α).attempt = .pure (.ok a) := rfl

@[simp] theorem throw_attempt (e : ε) :
    (.throw e : Prog Q A ε α).attempt = .pure (.error e) := rfl

theorem bind_assoc (p : Prog Q A ε α) (f : α → Prog Q A ε β) (g : β → Prog Q A ε γ) :
    (p.bind f).bind g = p.bind (fun a => (f a).bind g) := by
  induction p with
  | pure a => rfl
  | throw e => rfl
  | call q k ih => simp only [bind, ih]

/-- Run against surroundings that give exactly one reply to each call. -/
def eval (answer : (q : Q) → W → Except ε (A q) × W) : Prog Q A ε α → W → Except ε α × W
  | .pure a, w => (.ok a, w)
  | .throw e, w => (.error e, w)
  | .call q k, w => (k (answer q w).1).eval answer (answer q w).2

/-- One reply of the surroundings: the answer to a call and the world after it. -/
abbrev Env (Q : Type) (A : Q → Type) (ε W : Type) :=
  W → (q : Q) → Except ε (A q) → W → Prop

/-- Every run of the program from the world ends with an outcome and a world
that satisfy the postcondition. -/
def wp (env : Env Q A ε W) : Prog Q A ε α → (Except ε α → W → Prop) → W → Prop
  | .pure a, post, w => post (.ok a) w
  | .throw e, post, w => post (.error e) w
  | .call q k, post, w => ∀ r w', env w q r w' → (k r).wp env post w'

/-- Some run of the program from the world ends with an outcome and a world
that satisfy the postcondition. -/
def may (env : Env Q A ε W) : Prog Q A ε α → (Except ε α → W → Prop) → W → Prop
  | .pure a, post, w => post (.ok a) w
  | .throw e, post, w => post (.error e) w
  | .call q k, post, w => ∃ r w', env w q r w' ∧ (k r).may env post w'

/-- The continuation of a sequence: it runs after a normal outcome only. -/
def onOk (f : α → Prog Q A ε β) (run : Prog Q A ε β → W → Prop)
    (post : Except ε β → W → Prop) : Except ε α → W → Prop
  | .ok a, w => run (f a) w
  | .error e, w => post (.error e) w

/-- The continuation of a handler: it runs after a throw only. -/
def onThrow (h : ε → Prog Q A ε α) (run : Prog Q A ε α → W → Prop)
    (post : Except ε α → W → Prop) : Except ε α → W → Prop
  | .ok a, w => post (.ok a) w
  | .error e, w => run (h e) w

@[simp] theorem onOk_ok (f : α → Prog Q A ε β) (run : Prog Q A ε β → W → Prop)
    (post : Except ε β → W → Prop) (a : α) (w : W) : onOk f run post (.ok a) w = run (f a) w := rfl

@[simp] theorem onOk_error (f : α → Prog Q A ε β) (run : Prog Q A ε β → W → Prop)
    (post : Except ε β → W → Prop) (e : ε) (w : W) :
    onOk f run post (.error e) w = post (.error e) w := rfl

@[simp] theorem onThrow_ok (h : ε → Prog Q A ε α) (run : Prog Q A ε α → W → Prop)
    (post : Except ε α → W → Prop) (a : α) (w : W) :
    onThrow h run post (.ok a) w = post (.ok a) w := rfl

@[simp] theorem onThrow_error (h : ε → Prog Q A ε α) (run : Prog Q A ε α → W → Prop)
    (post : Except ε α → W → Prop) (e : ε) (w : W) :
    onThrow h run post (.error e) w = run (h e) w := rfl

variable (env : Env Q A ε W)

theorem wp_bind (p : Prog Q A ε α) (f : α → Prog Q A ε β) (post : Except ε β → W → Prop) (w : W) :
    (p.bind f).wp env post w ↔ p.wp env (onOk f (fun q => q.wp env post) post) w := by
  induction p generalizing w with
  | pure a => rfl
  | throw e => rfl
  | call q k ih =>
    simp only [bind, wp]
    exact forall_congr' fun r => forall_congr' fun w' => imp_congr_right fun _ => ih r w'

theorem may_bind (p : Prog Q A ε α) (f : α → Prog Q A ε β) (post : Except ε β → W → Prop) (w : W) :
    (p.bind f).may env post w ↔ p.may env (onOk f (fun q => q.may env post) post) w := by
  induction p generalizing w with
  | pure a => rfl
  | throw e => rfl
  | call q k ih =>
    simp only [bind, may]
    exact exists_congr fun r => exists_congr fun w' => and_congr_right fun _ => ih r w'

theorem wp_tryCatch (p : Prog Q A ε α) (h : ε → Prog Q A ε α) (post : Except ε α → W → Prop)
    (w : W) :
    (p.tryCatch h).wp env post w ↔ p.wp env (onThrow h (fun q => q.wp env post) post) w := by
  induction p generalizing w with
  | pure a => rfl
  | throw e => rfl
  | call q k ih =>
    simp only [tryCatch, wp]
    exact forall_congr' fun r => forall_congr' fun w' => imp_congr_right fun _ => ih r w'

theorem wp_attempt (p : Prog Q A ε α) (post : Except ε (Except ε α) → W → Prop) (w : W) :
    p.attempt.wp env post w ↔ p.wp env (fun r => post (.ok r)) w := by
  induction p generalizing w with
  | pure a => rfl
  | throw e => rfl
  | call q k ih =>
    simp only [attempt, wp]
    exact forall_congr' fun r => forall_congr' fun w' => imp_congr_right fun _ => ih r w'

theorem wp_perform (q : Q) (post : Except ε (A q) → W → Prop) (w : W) :
    (perform q : Prog Q A ε (A q)).wp env post w ↔ ∀ r w', env w q r w' → post r w' := by
  refine forall_congr' fun r => forall_congr' fun w' => imp_congr_right fun _ => ?_
  cases r <;> rfl

theorem may_perform (q : Q) (post : Except ε (A q) → W → Prop) (w : W) :
    (perform q : Prog Q A ε (A q)).may env post w ↔ ∃ r w', env w q r w' ∧ post r w' := by
  refine exists_congr fun r => exists_congr fun w' => and_congr_right fun _ => ?_
  cases r <;> rfl

theorem wp_mono {p : Prog Q A ε α} {post post' : Except ε α → W → Prop} {w : W}
    (h : p.wp env post w) (himp : ∀ r w', post r w' → post' r w') : p.wp env post' w := by
  induction p generalizing w with
  | pure a => exact himp _ _ h
  | throw e => exact himp _ _ h
  | call q k ih => exact fun r w' he => ih r (h r w' he)

/-- Fewer replies leave fewer runs. -/
theorem wp_env {env env' : Env Q A ε W} (henv : ∀ w q r w', env' w q r w' → env w q r w')
    {p : Prog Q A ε α} {post : Except ε α → W → Prop} {w : W} (h : p.wp env post w) :
    p.wp env' post w := by
  induction p generalizing w with
  | pure a => exact h
  | throw e => exact h
  | call q k ih => exact fun r w' he => ih r (h r w' (henv _ _ _ _ he))

theorem may_mono {p : Prog Q A ε α} {post post' : Except ε α → W → Prop} {w : W}
    (h : p.may env post w) (himp : ∀ r w', post r w' → post' r w') : p.may env post' w := by
  induction p generalizing w with
  | pure a => exact himp _ _ h
  | throw e => exact himp _ _ h
  | call q k ih =>
    obtain ⟨r, w', he, hk⟩ := h
    exact ⟨r, w', he, ih r hk⟩

/-- A run that exists and a property of all runs meet in one run. -/
theorem wp_may {p : Prog Q A ε α} {post post' : Except ε α → W → Prop} {w : W}
    (h : p.wp env post w) (h' : p.may env post' w) :
    ∃ r w', post r w' ∧ post' r w' := by
  induction p generalizing w with
  | pure a => exact ⟨_, _, h, h'⟩
  | throw e => exact ⟨_, _, h, h'⟩
  | call q k ih =>
    obtain ⟨r, w', he, hk⟩ := h'
    exact ih r (h r w' he) hk

end Prog

end BaasConnector.Lib.Effects
