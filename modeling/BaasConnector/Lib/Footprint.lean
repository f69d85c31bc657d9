import BaasConnector.Lib.Effects

namespace BaasConnector.Lib.Effects

variable {Q : Type} {A : Q → Type} {ε α β W : Type}

/-- Case distinction on an outcome. -/
def onResult (ok : α → Prop) (error : ε → Prop) : Except ε α → Prop
  | .ok a => ok a
  | .error e => error e

@[simp] theorem onResult_ok (ok : α → Prop) (error : ε → Prop) (a : α) :
    onResult ok error (.ok a) = ok a := rfl

@[simp] theorem onResult_error (ok : α → Prop) (error : ε → Prop) (e : ε) :
    onResult ok error (.error e) = error e := rfl

@[simp] theorem onResult_true : (onResult (fun _ : α => True) fun _ : ε => True) = fun _ => True := by
  funext r
  cases r <;> rfl

namespace Prog

/-- Rely and guarantee: while every reply is as the rely says, every call is as
the guarantee says, and the outcome satisfies the postcondition. -/
def Meets (rely : (q : Q) → Except ε (A q) → Prop) (guar : Q → Prop) :
    Prog Q A ε α → (Except ε α → Prop) → Prop
  | .pure a, post => post (.ok a)
  | .throw e, post => post (.error e)
  | .call q k, post => guar q ∧ ∀ r, rely q r → (k r).Meets rely guar post

/-- Every call that some run of the program issues satisfies the predicate. -/
abbrev Within (φ : Q → Prop) (p : Prog Q A ε α) : Prop :=
  p.Meets (fun _ _ => True) φ fun _ => True

variable {rely : (q : Q) → Except ε (A q) → Prop} {guar : Q → Prop} {post : Except ε α → Prop}

@[simp] theorem meets_pure (a : α) : (.pure a : Prog Q A ε α).Meets rely guar post ↔ post (.ok a) :=
  .rfl

@[simp] theorem meets_throw (e : ε) :
    (.throw e : Prog Q A ε α).Meets rely guar post ↔ post (.error e) := .rfl

@[simp] theorem meets_call (q : Q) (k : Except ε (A q) → Prog Q A ε α) :
    (.call q k : Prog Q A ε α).Meets rely guar post ↔
      guar q ∧ ∀ r, rely q r → (k r).Meets rely guar post := .rfl

@[simp] theorem meets_ofExcept (r : Except ε α) :
    (ofExcept r : Prog Q A ε α).Meets rely guar post ↔ post r := by
  cases r <;> rfl

theorem meets_bind {p : Prog Q A ε α} {f : α → Prog Q A ε β} {post : Except ε β → Prop} :
    (p.bind f).Meets rely guar post ↔
      p.Meets rely guar (onResult (fun a => (f a).Meets rely guar post) fun e => post (.error e)) := by
  induction p with
  | pure a => rfl
  | throw e => rfl
  | call q k ih => exact and_congr_right fun _ => forall_congr' fun r => imp_congr_right fun _ => ih r

theorem meets_attempt {p : Prog Q A ε α} {post : Except ε (Except ε α) → Prop} :
    p.attempt.Meets rely guar post ↔ p.Meets rely guar fun r => post (.ok r) := by
  induction p with
  | pure a => rfl
  | throw e => rfl
  | call q k ih => exact and_congr_right fun _ => forall_congr' fun r => imp_congr_right fun _ => ih r

@[simp] theorem meets_perform {q : Q} {post : Except ε (A q) → Prop} :
    (perform q : Prog Q A ε (A q)).Meets rely guar post ↔ guar q ∧ ∀ r, rely q r → post r := by
  simp [perform]

@[simp] theorem meets_perform_bind {q : Q} {f : A q → Prog Q A ε β} {post : Except ε β → Prop} :
    ((perform q).bind f).Meets rely guar post ↔
      guar q ∧ (∀ a, rely q (.ok a) → (f a).Meets rely guar post) ∧
        ∀ e, rely q (.error e) → post (.error e) := by
  rw [meets_bind, meets_perform]
  refine and_congr_right fun _ => ⟨fun h => ⟨fun a ha => h _ ha, fun e he => h _ he⟩, fun h r hr => ?_⟩
  cases r with
  | ok a => exact h.1 a hr
  | error e => exact h.2 e hr

@[simp] theorem meets_perform_attempt_bind {q : Q} {f : Except ε (A q) → Prog Q A ε β}
    {post : Except ε β → Prop} :
    ((perform q : Prog Q A ε (A q)).attempt.bind f).Meets rely guar post ↔
      guar q ∧ ∀ r, rely q r → (f r).Meets rely guar post := by
  rw [meets_bind, meets_attempt, meets_perform]
  rfl

theorem meets_mono {rely' : (q : Q) → Except ε (A q) → Prop} {guar' : Q → Prop}
    {post' : Except ε α → Prop} (hrely : ∀ q r, rely' q r → rely q r) (hguar : ∀ q, guar q → guar' q)
    (hpost : ∀ r, post r → post' r) {p : Prog Q A ε α} (hp : p.Meets rely guar post) :
    p.Meets rely' guar' post' := by
  induction p with
  | pure a => exact hpost _ hp
  | throw e => exact hpost _ hp
  | call q k ih => exact ⟨hguar q hp.1, fun r hr => ih r (hp.2 r (hrely q r hr))⟩

theorem meets_true {p : Prog Q A ε α} (h : ∀ q, guar q) : p.Meets rely guar fun _ => True := by
  induction p with
  | pure a => trivial
  | throw e => trivial
  | call q k ih => exact ⟨h q, fun r _ => ih r⟩

/-- What the surroundings keep at every call of the guarantee, they keep over
the whole run, and the postcondition holds at its end. -/
theorem wp_of_meets {env : Env Q A ε W} {R : W → W → Prop} (hrefl : ∀ w, R w w)
    (htrans : ∀ {w v u}, R w v → R v u → R w u)
    (hstep : ∀ {w q r w'}, guar q → env w q r w' → rely q r ∧ R w w') {p : Prog Q A ε α}
    (hp : p.Meets rely guar post) (w : W) : p.wp env (fun r w' => post r ∧ R w w') w := by
  induction p generalizing w with
  | pure a => exact ⟨hp, hrefl w⟩
  | throw e => exact ⟨hp, hrefl w⟩
  | call q k ih =>
    intro r w' he
    obtain ⟨hr, hR⟩ := hstep hp.1 he
    exact wp_mono env (ih r (hp.2 r hr) w') fun _ _ h => ⟨h.1, htrans hR h.2⟩

/-- Surroundings that answer every call let every program run to its end. -/
theorem may_of_wp {env : Env Q A ε W} (htotal : ∀ w q, ∃ r w', env w q r w') {p : Prog Q A ε α}
    {post : Except ε α → W → Prop} {w : W} (h : p.wp env post w) : p.may env post w := by
  induction p generalizing w with
  | pure a => exact h
  | throw e => exact h
  | call q k ih =>
    obtain ⟨r, w', he⟩ := htotal w q
    exact ⟨r, w', he, ih r (h r w' he)⟩

theorem not_wp_of_may {env : Env Q A ε W} {p : Prog Q A ε α} {post : Except ε α → W → Prop} {w : W}
    (h : p.may env (fun r w' => ¬ post r w') w) : ¬ p.wp env post w := by
  intro hw
  obtain ⟨r, w', hp, hn⟩ := wp_may env hw h
  exact hn hp

/-- One run of the program from the first world to the second. -/
def Runs (env : Env Q A ε W) (p : Prog Q A ε α) (w : W) (r : Except ε α) (w' : W) : Prop :=
  p.may env (fun r' v => r' = r ∧ v = w') w

theorem Runs.of_wp {env : Env Q A ε W} {p : Prog Q A ε α} {w w' : W} {r : Except ε α}
    {post : Except ε α → W → Prop} (h : p.Runs env w r w') (hw : p.wp env post w) : post r w' := by
  obtain ⟨r', v, hp, rfl, rfl⟩ := wp_may env hw h
  exact hp

/-- Run against a script that settles each reply in turn. The script may end
before the program does. -/
def play {C : Type} (answer : C → (q : Q) → W → Option (Except ε (A q) × W)) :
    List C → Prog Q A ε α → W → Option (Except ε α × W)
  | _, .pure a, w => some (.ok a, w)
  | _, .throw e, w => some (.error e, w)
  | [], .call _ _, _ => none
  | c :: cs, .call q k, w =>
    match answer c q w with
    | some (r, w') => play answer cs (k r) w'
    | none => none

theorem runs_of_play {C : Type} {answer : C → (q : Q) → W → Option (Except ε (A q) × W)}
    {env : Env Q A ε W} (henv : ∀ c q w r w', answer c q w = some (r, w') → env w q r w')
    {cs : List C} {p : Prog Q A ε α} {w w' : W} {r : Except ε α}
    (h : p.play answer cs w = some (r, w')) : p.Runs env w r w' := by
  induction p generalizing cs w with
  | pure a =>
    simp only [play, Option.some.injEq, Prod.mk.injEq] at h
    exact h
  | throw e =>
    simp only [play, Option.some.injEq, Prod.mk.injEq] at h
    exact h
  | call q k ih =>
    cases cs with
    | nil => simp [play] at h
    | cons c cs =>
      rw [play] at h
      cases ha : answer c q w with
      | none => simp [ha] at h
      | some b =>
        rw [ha] at h
        exact ⟨b.1, b.2, henv _ _ _ _ _ ha, ih b.1 h⟩

/-- The worlds that a run goes through. A crash leaves one of them behind. -/
def Visits (env : Env Q A ε W) : Prog Q A ε α → W → W → Prop
  | .pure _, w, v => v = w
  | .throw _, w, v => v = w
  | .call q k, w, v => v = w ∨ ∃ r u, env w q r u ∧ (k r).Visits env u v

/-- Run against a script and stop where the script ends. -/
def stop {C : Type} (answer : C → (q : Q) → W → Option (Except ε (A q) × W)) :
    List C → Prog Q A ε α → W → Option W
  | [], _, w => some w
  | c :: cs, .call q k, w =>
    match answer c q w with
    | some (r, w') => stop answer cs (k r) w'
    | none => none
  | _ :: _, _, _ => none

theorem visits_self (env : Env Q A ε W) (p : Prog Q A ε α) (w : W) : p.Visits env w w := by
  cases p with
  | pure a => rfl
  | throw e => rfl
  | call q k => exact .inl rfl

theorem visits_of_stop {C : Type} (answer : C → (q : Q) → W → Option (Except ε (A q) × W))
    {env : Env Q A ε W} (henv : ∀ c q w r w', answer c q w = some (r, w') → env w q r w')
    (cs : List C) {p : Prog Q A ε α} {w w' : W} (h : p.stop answer cs w = some w') :
    p.Visits env w w' := by
  induction cs generalizing p w with
  | nil =>
    rw [stop, Option.some.injEq] at h
    exact h ▸ visits_self env p w
  | cons c cs ih =>
    cases p with
    | pure a => simp [stop] at h
    | throw e => simp [stop] at h
    | call q k =>
      rw [stop] at h
      cases ha : answer c q w with
      | none => simp [ha] at h
      | some b =>
        rw [ha] at h
        exact .inr ⟨b.1, b.2, henv _ _ _ _ _ ha, ih h⟩

end Prog

end BaasConnector.Lib.Effects

namespace BaasConnector.Lib.Effects

variable {Q : Type} {A : Q → Type} {ε α β W E : Type}

namespace Prog

/-- The surroundings with a tape, on which every reply puts its events. -/
def taped (env : Env Q A ε W) (emits : (q : Q) → Except ε (A q) → List E) : Env Q A ε (W × List E) :=
  fun s q r s' => env s.1 q r s'.1 ∧ s'.2 = s.2 ++ emits q r

def Silent (emits : (q : Q) → Except ε (A q) → List E) (q : Q) : Prop := ∀ r, emits q r = []

variable {env : Env Q A ε W} {emits : (q : Q) → Except ε (A q) → List E} {w : W} {tape : List E}

theorem taped_total (htotal : ∀ w q, ∃ r w', env w q r w') (s : W × List E) (q : Q) :
    ∃ r s', taped env emits s q r s' := by
  obtain ⟨r, w', he⟩ := htotal s.1 q
  exact ⟨r, (w', s.2 ++ emits q r), he, rfl⟩

theorem wp_taped_perform {q : Q} {f : A q → Prog Q A ε β} {post : Except ε β → W × List E → Prop}
    (h : ∀ r w', env w q r w' →
      onOk f (fun p => p.wp (taped env emits) post) post r (w', tape ++ emits q r)) :
    ((perform q).bind f).wp (taped env emits) post (w, tape) := by
  rw [wp_bind, wp_perform]
  rintro r ⟨w', tape'⟩ ⟨he, ht⟩
  have htape : tape' = tape ++ emits q r := ht
  rw [htape]
  exact h r w' he

/-- A part of a program that emits nothing runs as it does without the tape. -/
theorem wp_taped_silent {p : Prog Q A ε α} (hp : p.Within (Silent emits))
    {post : Except ε α → W × List E → Prop} (h : p.wp env (fun r w' => post r (w', tape)) w) :
    p.wp (taped env emits) post (w, tape) := by
  induction p generalizing w with
  | pure a => exact h
  | throw e => exact h
  | call q k ih =>
    rintro r ⟨w', tape'⟩ ⟨he, ht⟩
    have htape : tape' = tape := by simpa only [hp.1 r, List.append_nil] using ht
    rw [htape]
    exact ih r (hp.2 r trivial) (h r w' he)

theorem wp_taped_bind {p : Prog Q A ε α} {f : α → Prog Q A ε β} (hp : p.Within (Silent emits))
    {post : Except ε β → W × List E → Prop}
    (h : p.wp env (onOk f (fun q w' => q.wp (taped env emits) post (w', tape))
      fun r w' => post r (w', tape)) w) :
    (p.bind f).wp (taped env emits) post (w, tape) := by
  rw [wp_bind]
  refine wp_taped_silent hp (wp_mono env h fun r w' hr => ?_)
  cases r with
  | ok a => exact hr
  | error e => exact hr

/-- A scripted answer that keeps the tape. -/
def tapedAnswer {C : Type} (answer : C → (q : Q) → W → Option (Except ε (A q) × W))
    (emits : (q : Q) → Except ε (A q) → List E) (c : C) (q : Q) (s : W × List E) :
    Option (Except ε (A q) × W × List E) :=
  (answer c q s.1).map fun x => (x.1, x.2, s.2 ++ emits q x.1)

theorem taped_of_answer {C : Type} {answer : C → (q : Q) → W → Option (Except ε (A q) × W)}
    (henv : ∀ c q w r w', answer c q w = some (r, w') → env w q r w') (c : C) (q : Q) (s : W × List E)
    (r : Except ε (A q)) (s' : W × List E) (h : tapedAnswer answer emits c q s = some (r, s')) :
    taped env emits s q r s' := by
  obtain ⟨⟨r', w'⟩, ha, hx⟩ := Option.map_eq_some_iff.mp h
  simp only [Prod.mk.injEq] at hx
  obtain ⟨rfl, rfl⟩ := hx
  exact ⟨henv c q s.1 _ _ ha, rfl⟩

end Prog

end BaasConnector.Lib.Effects
