import BaasConnector.Lib.Footprint
import Mathlib.Logic.Function.Basic
import Mathlib.Logic.Relation

namespace BaasConnector.Lib.Effects

variable {Q : Type} {A : Q → Type} {ε α β σ W : Type}

/-- What a program has to keep to while its history, a state that no program
reads, moves on with every reply. -/
structure Protocol (Q : Type) (A : Q → Type) (ε σ : Type) where
  next : σ → (q : Q) → Except ε (A q) → σ
  rely : σ → (q : Q) → Except ε (A q) → Prop
  guar : σ → Q → Prop

namespace Prog

def Follows (P : Protocol Q A ε σ) : Prog Q A ε α → (σ → Except ε α → Prop) → σ → Prop
  | .pure a, post, s => post s (.ok a)
  | .throw e, post, s => post s (.error e)
  | .call q k, post, s => P.guar s q ∧ ∀ r, P.rely s q r → (k r).Follows P post (P.next s q r)

variable {P : Protocol Q A ε σ} {s : σ}

@[simp] theorem follows_pure (a : α) (post : σ → Except ε α → Prop) :
    (.pure a : Prog Q A ε α).Follows P post s ↔ post s (.ok a) := .rfl

@[simp] theorem follows_throw (e : ε) (post : σ → Except ε α → Prop) :
    (.throw e : Prog Q A ε α).Follows P post s ↔ post s (.error e) := .rfl

@[simp] theorem follows_call (q : Q) (k : Except ε (A q) → Prog Q A ε α)
    (post : σ → Except ε α → Prop) :
    (.call q k : Prog Q A ε α).Follows P post s ↔
      P.guar s q ∧ ∀ r, P.rely s q r → (k r).Follows P post (P.next s q r) := .rfl

@[simp] theorem follows_ofExcept (r : Except ε α) (post : σ → Except ε α → Prop) :
    (ofExcept r : Prog Q A ε α).Follows P post s ↔ post s r := by
  cases r <;> rfl

theorem follows_bind {p : Prog Q A ε α} {f : α → Prog Q A ε β} {post : σ → Except ε β → Prop} :
    (p.bind f).Follows P post s ↔
      p.Follows P (fun s => onResult (fun a => (f a).Follows P post s) fun e => post s (.error e)) s := by
  induction p generalizing s with
  | pure a => rfl
  | throw e => rfl
  | call q k ih => exact and_congr_right fun _ => forall_congr' fun r => imp_congr_right fun _ => ih r

theorem follows_attempt {p : Prog Q A ε α} {post : σ → Except ε (Except ε α) → Prop} :
    p.attempt.Follows P post s ↔ p.Follows P (fun s r => post s (.ok r)) s := by
  induction p generalizing s with
  | pure a => rfl
  | throw e => rfl
  | call q k ih => exact and_congr_right fun _ => forall_congr' fun r => imp_congr_right fun _ => ih r

@[simp] theorem follows_perform {q : Q} {post : σ → Except ε (A q) → Prop} :
    (perform q : Prog Q A ε (A q)).Follows P post s ↔
      P.guar s q ∧ ∀ r, P.rely s q r → post (P.next s q r) r := by
  simp [perform]

@[simp] theorem follows_perform_bind {q : Q} {f : A q → Prog Q A ε β}
    {post : σ → Except ε β → Prop} :
    ((perform q).bind f).Follows P post s ↔
      P.guar s q ∧ (∀ a, P.rely s q (.ok a) → (f a).Follows P post (P.next s q (.ok a))) ∧
        ∀ e, P.rely s q (.error e) → post (P.next s q (.error e)) (.error e) := by
  rw [follows_bind, follows_perform]
  refine and_congr_right fun _ => ⟨fun h => ⟨fun a ha => h _ ha, fun e he => h _ he⟩, fun h r hr => ?_⟩
  cases r with
  | ok a => exact h.1 a hr
  | error e => exact h.2 e hr

@[simp] theorem follows_perform_attempt_bind {q : Q} {f : Except ε (A q) → Prog Q A ε β}
    {post : σ → Except ε β → Prop} :
    ((perform q : Prog Q A ε (A q)).attempt.bind f).Follows P post s ↔
      P.guar s q ∧ ∀ r, P.rely s q r → (f r).Follows P post (P.next s q r) := by
  rw [follows_bind, follows_attempt, follows_perform]
  rfl

theorem follows_mono {p : Prog Q A ε α} {post post' : σ → Except ε α → Prop}
    (hpost : ∀ s r, post s r → post' s r) (hp : p.Follows P post s) : p.Follows P post' s := by
  induction p generalizing s with
  | pure a => exact hpost _ _ hp
  | throw e => exact hpost _ _ hp
  | call q k ih => exact ⟨hp.1, fun r hr => ih r (hp.2 r hr)⟩

/-- A program whose calls leave the history where it is. -/
theorem follows_of_within {p : Prog Q A ε α} {guar : Q → Prop} (hp : p.Within guar)
    (hguar : ∀ q, guar q → P.guar s q ∧ ∀ r, P.next s q r = s) {post : σ → Except ε α → Prop}
    (hpost : ∀ r, post s r) : p.Follows P post s := by
  induction p with
  | pure a => exact hpost _
  | throw e => exact hpost _
  | call q k ih =>
    refine ⟨(hguar q hp.1).1, fun r _ => ?_⟩
    rw [(hguar q hp.1).2 r]
    exact ih r (hp.2 r trivial)

end Prog

/-- A world and the programs that run on it, each stopped before its next call,
with its history. -/
structure Pool (Q : Type) (A : Q → Type) (ε α σ W : Type) where
  world : W
  threads : Nat → Option (σ × Prog Q A ε α)

/-- The histories of the threads of a pool. -/
def Pool.histories (s : Pool Q A ε α σ W) : Nat → Option σ := fun j => (s.threads j).map Prod.fst

theorem Pool.histories_update (w : W) (threads : Nat → Option (σ × Prog Q A ε α)) (i : Nat)
    (t : Option (σ × Prog Q A ε α)) :
    (⟨w, Function.update threads i t⟩ : Pool Q A ε α σ W).histories =
      Function.update (⟨w, threads⟩ : Pool Q A ε α σ W).histories i (t.map Prod.fst) := by
  funext j
  by_cases h : j = i
  · subst h
    simp [histories]
  · simp [histories, h]

/-- A system of threads: how calls are answered, how histories move on, what may
be started, and which thread may go on from which state. -/
structure System (Q : Type) (A : Q → Type) (ε α σ W : Type) where
  env : Prog.Env Q A ε W
  next : σ → (q : Q) → Except ε (A q) → σ
  start : σ → Prog Q A ε α → Prop
  allowed : Pool Q A ε α σ W → Nat → Prop

namespace System

variable (S : System Q A ε α σ W)

/-- One move of the scheduler: a thread starts, makes one call, or is lost. -/
inductive Step : Pool Q A ε α σ W → Pool Q A ε α σ W → Prop
  | spawn {s : Pool Q A ε α σ W} (i : Nat) {h : σ} {p : Prog Q A ε α} (hfree : s.threads i = none)
      (hstart : S.start h p) : Step s ⟨s.world, Function.update s.threads i (some (h, p))⟩
  | resume {s : Pool Q A ε α σ W} (i : Nat) {h : σ} {q : Q} {k : Except ε (A q) → Prog Q A ε α}
      {r : Except ε (A q)} {w' : W} (hi : s.threads i = some (h, .call q k))
      (hok : S.allowed s i) (henv : S.env s.world q r w') :
      Step s ⟨w', Function.update s.threads i (some (S.next h q r, k r))⟩
  | drop {s : Pool Q A ε α σ W} (i : Nat) : Step s ⟨s.world, Function.update s.threads i none⟩

abbrev Reaches : Pool Q A ε α σ W → Pool Q A ε α σ W → Prop := Relation.ReflTransGen S.Step

variable {S}

/-- Every thread keeps to the protocol from where its history stands. -/
def Obeys (P : Protocol Q A ε σ) (s : Pool Q A ε α σ W) : Prop :=
  ∀ i h p, s.threads i = some (h, p) → p.Follows P (fun _ _ => True) h

/-- What a call of the guarantee keeps, with a reply of the rely, is kept by
every run of threads that keep to the protocol. -/
structure Keeps (S : System Q A ε α σ W) (P : Protocol Q A ε σ) (I : W → (Nat → Option σ) → Prop) :
    Prop where
  next : S.next = P.next
  start : ∀ {h p}, S.start h p → p.Follows P (fun _ _ => True) h
  spawn : ∀ {w g i h p}, I w g → g i = none → S.start h p → I w (Function.update g i (some h))
  drop : ∀ {w g i}, I w g → I w (Function.update g i none)
  call : ∀ {s : Pool Q A ε α σ W} {i h q k r w'}, I s.world s.histories →
    s.threads i = some (h, .call q k) → S.allowed s i → P.guar h q → S.env s.world q r w' →
    P.rely h q r ∧ I w' (Function.update s.histories i (some (P.next h q r)))

theorem obeys_update {P : Protocol Q A ε σ} {w : W} {s : Pool Q A ε α σ W} {i : Nat}
    {t : Option (σ × Prog Q A ε α)} (h : Obeys P s)
    (ht : ∀ g p, t = some (g, p) → p.Follows P (fun _ _ => True) g) :
    Obeys P (⟨w, Function.update s.threads i t⟩ : Pool Q A ε α σ W) := by
  intro j g p hj
  by_cases hji : j = i
  · subst hji
    change Function.update s.threads j t j = some (g, p) at hj
    rw [Function.update_self] at hj
    exact ht g p hj
  · change Function.update s.threads i t j = some (g, p) at hj
    rw [Function.update_of_ne hji] at hj
    exact h j g p hj

theorem Keeps.step {P : Protocol Q A ε σ} {I : W → (Nat → Option σ) → Prop} (hk : S.Keeps P I)
    {s s' : Pool Q A ε α σ W} (hs : S.Step s s') (hobeys : Obeys P s)
    (hI : I s.world s.histories) : Obeys P s' ∧ I s'.world s'.histories := by
  cases hs with
  | spawn i hfree hstart =>
    refine ⟨obeys_update hobeys fun g p h => ?_, ?_⟩
    · simp only [Option.some.injEq, Prod.mk.injEq] at h
      rw [← h.1, ← h.2]
      exact hk.start hstart
    · rw [Pool.histories_update]
      exact hk.spawn hI (by simp [Pool.histories, hfree]) hstart
  | resume i hi hok henv =>
    have hf := hobeys i _ _ hi
    obtain ⟨hr, hI'⟩ := hk.call hI hi hok hf.1 henv
    refine ⟨obeys_update hobeys fun g p h => ?_, ?_⟩
    · simp only [Option.some.injEq, Prod.mk.injEq] at h
      rw [← h.1, ← h.2, hk.next]
      exact hf.2 _ hr
    · rw [Pool.histories_update, hk.next]
      exact hI'
  | drop i =>
    refine ⟨obeys_update hobeys (fun g p h => by simp at h), ?_⟩
    rw [Pool.histories_update]
    exact hk.drop hI

theorem Keeps.reaches {P : Protocol Q A ε σ} {I : W → (Nat → Option σ) → Prop} (hk : S.Keeps P I)
    {s s' : Pool Q A ε α σ W} (hs : S.Reaches s s') (hobeys : Obeys P s)
    (hI : I s.world s.histories) : Obeys P s' ∧ I s'.world s'.histories := by
  induction hs with
  | refl => exact ⟨hobeys, hI⟩
  | tail _ hstep ih => exact hk.step hstep ih.1 ih.2

/-- Runs in which every step meets a condition on the pools before and after it. -/
abbrev Under (S : System Q A ε α σ W) (ok : Pool Q A ε α σ W → Pool Q A ε α σ W → Prop) :
    Pool Q A ε α σ W → Pool Q A ε α σ W → Prop :=
  Relation.ReflTransGen fun s s' => S.Step s s' ∧ ok s s'

/-- Every thread keeps to the protocol and to how it has to end. -/
def Ends (P : Protocol Q A ε σ) (post : σ → Except ε α → Prop) (s : Pool Q A ε α σ W) : Prop :=
  ∀ i h p, s.threads i = some (h, p) → p.Follows P post h

/-- What every step that meets the condition keeps. The loss of a thread is
such a step too. -/
structure Maintains (S : System Q A ε α σ W) (P : Protocol Q A ε σ) (post : σ → Except ε α → Prop)
    (ok : Pool Q A ε α σ W → Pool Q A ε α σ W → Prop) (I : W → (Nat → Option σ) → Prop) : Prop where
  next : S.next = P.next
  start : ∀ {h p}, S.start h p → p.Follows P post h
  spawn : ∀ {s : Pool Q A ε α σ W} {i h p}, I s.world s.histories → s.threads i = none →
    S.start h p → I s.world (Function.update s.histories i (some h))
  drop : ∀ {s : Pool Q A ε α σ W} {i}, I s.world s.histories →
    ok s ⟨s.world, Function.update s.threads i none⟩ →
    I s.world (Function.update s.histories i none)
  call : ∀ {s : Pool Q A ε α σ W} {i h q k r w'}, I s.world s.histories →
    s.threads i = some (h, .call q k) → S.allowed s i → P.guar h q → S.env s.world q r w' →
    ok s ⟨w', Function.update s.threads i (some (S.next h q r, k r))⟩ →
    P.rely h q r ∧ I w' (Function.update s.histories i (some (P.next h q r)))

theorem ends_update {P : Protocol Q A ε σ} {post : σ → Except ε α → Prop} {w : W}
    {s : Pool Q A ε α σ W} {i : Nat} {t : Option (σ × Prog Q A ε α)} (h : Ends P post s)
    (ht : ∀ g p, t = some (g, p) → p.Follows P post g) :
    Ends P post (⟨w, Function.update s.threads i t⟩ : Pool Q A ε α σ W) := by
  intro j g p hj
  by_cases hji : j = i
  · subst hji
    change Function.update s.threads j t j = some (g, p) at hj
    rw [Function.update_self] at hj
    exact ht g p hj
  · change Function.update s.threads i t j = some (g, p) at hj
    rw [Function.update_of_ne hji] at hj
    exact h j g p hj

variable {P : Protocol Q A ε σ} {post : σ → Except ε α → Prop}
  {ok : Pool Q A ε α σ W → Pool Q A ε α σ W → Prop} {I : W → (Nat → Option σ) → Prop}
  {s s' : Pool Q A ε α σ W}

theorem Maintains.step (hm : S.Maintains P post ok I) (hs : S.Step s s') (hok : ok s s')
    (hends : Ends P post s) (hI : I s.world s.histories) :
    Ends P post s' ∧ I s'.world s'.histories := by
  cases hs with
  | spawn i hfree hstart =>
    refine ⟨ends_update hends fun g p h => ?_, ?_⟩
    · simp only [Option.some.injEq, Prod.mk.injEq] at h
      rw [← h.1, ← h.2]
      exact hm.start hstart
    · rw [Pool.histories_update]
      exact hm.spawn hI hfree hstart
  | resume i hi hallowed henv =>
    have hf := hends i _ _ hi
    obtain ⟨hr, hI'⟩ := hm.call hI hi hallowed hf.1 henv hok
    refine ⟨ends_update hends fun g p h => ?_, ?_⟩
    · simp only [Option.some.injEq, Prod.mk.injEq] at h
      rw [← h.1, ← h.2, hm.next]
      exact hf.2 _ hr
    · rw [Pool.histories_update, hm.next]
      exact hI'
  | drop i =>
    refine ⟨ends_update hends (fun g p h => by simp at h), ?_⟩
    rw [Pool.histories_update]
    exact hm.drop hI hok

theorem Maintains.under (hm : S.Maintains P post ok I) (hs : S.Under ok s s')
    (hends : Ends P post s) (hI : I s.world s.histories) :
    Ends P post s' ∧ I s'.world s'.histories := by
  induction hs with
  | refl => exact ⟨hends, hI⟩
  | tail _ hstep ih => exact hm.step hstep.1 hstep.2 ih.1 ih.2

end System

/-- Let one thread make its next call, with the reply that the choice settles. -/
def Pool.resume {C : Type} (answer : C → (q : Q) → W → Option (Except ε (A q) × W))
    (next : σ → (q : Q) → Except ε (A q) → σ) (s : Pool Q A ε α σ W) (i : Nat) (c : C) :
    Option (Pool Q A ε α σ W) :=
  match s.threads i with
  | some (h, .call q k) =>
    match answer c q s.world with
    | some (r, w') => some ⟨w', Function.update s.threads i (some (next h q r, k r))⟩
    | none => none
  | _ => none

def Pool.script {C : Type} (answer : C → (q : Q) → W → Option (Except ε (A q) × W))
    (next : σ → (q : Q) → Except ε (A q) → σ) :
    List (Nat × C) → Pool Q A ε α σ W → Option (Pool Q A ε α σ W)
  | [], s => some s
  | (i, c) :: moves, s =>
    match s.resume answer next i c with
    | some s' => Pool.script answer next moves s'
    | none => none

theorem System.reaches_of_script {C : Type} {S : System Q A ε α σ W}
    {answer : C → (q : Q) → W → Option (Except ε (A q) × W)}
    (henv : ∀ c q w r w', answer c q w = some (r, w') → S.env w q r w')
    (hallowed : ∀ s i, S.allowed s i) {moves : List (Nat × C)} {s s' : Pool Q A ε α σ W}
    (h : s.script answer S.next moves = some s') : S.Reaches s s' := by
  induction moves generalizing s with
  | nil =>
    rw [Pool.script, Option.some.injEq] at h
    exact h ▸ .refl
  | cons m moves ih =>
    obtain ⟨i, c⟩ := m
    rw [Pool.script] at h
    cases hr : s.resume answer S.next i c with
    | none => simp [hr] at h
    | some v =>
      rw [hr] at h
      refine .head ?_ (ih h)
      unfold Pool.resume at hr
      cases ht : s.threads i with
      | none => simp [ht] at hr
      | some t =>
        obtain ⟨g, p⟩ := t
        cases p with
        | pure a => simp [ht] at hr
        | throw e => simp [ht] at hr
        | call q k =>
          simp only [ht] at hr
          cases ha : answer c q s.world with
          | none => simp [ha] at hr
          | some b =>
            rw [ha, Option.some.injEq] at hr
            exact hr ▸ .resume i ht (hallowed s i) (henv _ _ _ _ _ ha)

end BaasConnector.Lib.Effects
