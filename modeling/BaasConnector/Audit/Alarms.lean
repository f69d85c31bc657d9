import BaasConnector.Audit.Chain

namespace BaasConnector.Audit.Alarms

open BaasConnector.Lib.Chains BaasConnector.Lib.History BaasConnector.Audit.Log
open BaasConnector.Audit.Chain
open BaasConnector.Taxonomy.Status (Environment)

variable {H : Type}

def ofEnvironment (environment : Environment) (rows : List (AuditRow H)) : List (AuditRow H) :=
  rows.filter (·.environment = environment)

/-- The instants of the rows never turn back: each lies between any earlier and
any later one. -/
def Steady (rows : List (AuditRow H)) : Prop :=
  ∀ a b c, [a, b, c].Sublist rows →
    (a.occurredAt ≤ b.occurredAt ∧ b.occurredAt ≤ c.occurredAt) ∨
      (c.occurredAt ≤ b.occurredAt ∧ b.occurredAt ≤ a.occurredAt)

theorem steady_of_length {rows : List (AuditRow H)} (h : rows.length ≤ 2) : Steady rows := by
  intro a b c hs
  have hlength := hs.length_le
  simp only [List.length_cons, List.length_nil] at hlength
  omega

/-- The rows of an environment that a transaction commits carry on its chain. -/
structure CarriesOn (old new : List (AuditRow H)) : Prop where
  later : ∀ a ∈ old, ∀ b ∈ new, a.sequence < b.sequence
  linked : ∀ a ∈ old.getLast?, ∀ b ∈ new.head?, Over a b
  steady : Steady (old ++ new)

def Continues (s : Database H) : Action → Prop
  | .commit session => ∀ environment,
      CarriesOn (ofEnvironment environment s.rows) (ofEnvironment environment (s.sessions session).rows)
  | _ => True

section Reading

instance : IsTrans (AuditRow H) fun a b => a.sequence ≤ b.sequence := ⟨fun _ _ _ => le_trans⟩

instance : Std.Total fun a b : AuditRow H => a.sequence ≤ b.sequence :=
  ⟨fun a b => le_total a.sequence b.sequence⟩

theorem bySequence_pairwise (rows : List (AuditRow H)) :
    (bySequence rows).Pairwise fun a b => a.sequence ≤ b.sequence :=
  List.pairwise_insertionSort _ rows

theorem mem_bySequence {row : AuditRow H} {rows : List (AuditRow H)} :
    row ∈ bySequence rows ↔ row ∈ rows :=
  List.mem_insertionSort _

theorem bySequence_of_pairwise {rows : List (AuditRow H)}
    (h : rows.Pairwise fun a b => a.sequence < b.sequence) : bySequence rows = rows :=
  List.Pairwise.insertionSort_eq (h.imp fun hlt => le_of_lt hlt)

theorem mem_ofEnvironment {environment : Environment} {row : AuditRow H} {rows : List (AuditRow H)} :
    row ∈ ofEnvironment environment rows ↔ row ∈ rows ∧ row.environment = environment := by
  simp [ofEnvironment]

theorem ofEnvironment_append (environment : Environment) (rows more : List (AuditRow H)) :
    ofEnvironment environment (rows ++ more) =
      ofEnvironment environment rows ++ ofEnvironment environment more :=
  List.filter_append rows more

theorem isChain_singleton {R : AuditRow H → AuditRow H → Prop} (environment : Environment)
    (row : AuditRow H) : (ofEnvironment environment [row]).IsChain R := by
  by_cases he : row.environment = environment <;> simp [ofEnvironment, he]

/-- The trigger reads the highest row of the environment that it can see. -/
theorem lastOf_some {environment : Environment} {rows : List (AuditRow H)} {row : AuditRow H}
    (hrow : row ∈ rows) (henv : row.environment = environment) :
    ∃ z, lastOf environment rows = some z ∧ z ∈ rows ∧ z.environment = environment ∧
      row.sequence ≤ z.sequence := by
  have hmem : row ∈ bySequence (ofEnvironment environment rows) :=
    mem_bySequence.mpr (mem_ofEnvironment.mpr ⟨hrow, henv⟩)
  obtain ⟨z, hz⟩ := Option.isSome_iff_exists.mp (List.getLast?_isSome.mpr (List.ne_nil_of_mem hmem))
  obtain ⟨init, hinit⟩ := List.getLast?_eq_some_iff.mp hz
  obtain ⟨hzrows, hzenv⟩ := mem_ofEnvironment.mp (mem_bySequence.mp (List.mem_of_getLast? hz))
  refine ⟨z, hz, hzrows, hzenv, ?_⟩
  have hsorted := bySequence_pairwise (ofEnvironment environment rows)
  rw [hinit] at hmem hsorted
  obtain hm | hm := List.mem_append.mp hmem
  · exact (List.pairwise_append.mp hsorted).2.2 row hm z (List.mem_singleton_self z)
  · exact le_of_eq (congrArg AuditRow.sequence (List.mem_singleton.mp hm))

end Reading

/-- The last of increasing rows is the only one that is not below it. -/
theorem last_of_le {rows : List (AuditRow H)} {a z : AuditRow H}
    (h : rows.Pairwise fun a b => a.sequence < b.sequence) (ha : a ∈ rows.getLast?) (hz : z ∈ rows)
    (hle : a.sequence ≤ z.sequence) : z = a := by
  obtain ⟨init, rfl⟩ := List.getLast?_eq_some_iff.mp ha
  obtain hinit | hlast := List.mem_append.mp hz
  · have hlt := (List.pairwise_append.mp h).2.2 z hinit a (List.mem_singleton_self a)
    omega
  · exact List.mem_singleton.mp hlast

/-- What a session holds: increasing numbers below the counter. -/
structure Numbered (next : Nat) (state : Session H) : Prop where
  drawn : ∀ n, state.drawn = some n → n < next ∧ ∀ row ∈ state.rows, row.sequence < n
  below : ∀ row ∈ state.rows, row.sequence < next
  increasing : state.rows.Pairwise fun a b => a.sequence < b.sequence

/-- Each waiting row of an environment was inserted over the one before it, or
over a committed row that is not below that one. -/
def Waiting (rows : List (AuditRow H)) (state : Session H) : Prop :=
  ∀ environment, (ofEnvironment environment state.rows).IsChain fun a b =>
    Over a b ∨ ∃ z ∈ ofEnvironment environment rows, a.sequence ≤ z.sequence

/-- The committed rows of an environment as one chain. -/
structure Chained (rows : List (AuditRow H)) : Prop where
  increasing : rows.Pairwise fun a b => a.sequence < b.sequence
  linked : rows.IsChain Over
  steady : Steady rows

structure Orderly (s : Database H) : Prop where
  numbered : ∀ session, Numbered s.nextSequence (s.sessions session)
  waiting : ∀ session, Waiting s.rows (s.sessions session)
  chained : ∀ environment, Chained (ofEnvironment environment s.rows)

theorem Numbered.mono {next next' : Nat} {state : Session H} (h : Numbered next state) (hle : next ≤ next') :
    Numbered next' state where
  drawn n hn := ⟨lt_of_lt_of_le (h.drawn n hn).1 hle, (h.drawn n hn).2⟩
  below row hrow := lt_of_lt_of_le (h.below row hrow) hle
  increasing := h.increasing

theorem numbered_empty (next : Nat) : Numbered next ({} : Session H) where
  drawn n hn := by cases hn
  below row hrow := by cases hrow
  increasing := .nil

theorem waiting_empty (rows : List (AuditRow H)) : Waiting rows ({} : Session H) := fun _ => .nil

theorem Waiting.mono {rows more : List (AuditRow H)} {state : Session H} (h : Waiting rows state) :
    Waiting (rows ++ more) state := by
  intro environment
  refine (h environment).imp fun a b hab => hab.imp_right fun ⟨z, hz, hle⟩ => ⟨z, ?_, hle⟩
  rw [ofEnvironment_append]
  exact List.mem_append_left _ hz

variable (d : Digest H) {s s' : Database H} {session : Nat} {action : Action}

/-- The row that an insert adds to those of its session. -/
theorem waiting_insert (hn : Numbered s.nextSequence (s.sessions session))
    (hw : Waiting s.rows (s.sessions session)) (sequence : Nat) (entry : AuditEntry) :
    Waiting s.rows
      { drawn := none
        rows := (s.sessions session).rows ++ [computeAuditChain d (s.visible session) sequence entry] } := by
  intro environment
  rw [ofEnvironment_append]
  refine (hw environment).append (isChain_singleton environment _) fun a ha b hb => ?_
  obtain ⟨hbnew, hbenv⟩ := mem_ofEnvironment.mp (List.mem_of_mem_head? hb)
  rw [List.mem_singleton] at hbnew
  subst hbnew
  obtain ⟨haown, haenv⟩ := mem_ofEnvironment.mp (List.mem_of_getLast? ha)
  have hvisible : a ∈ s.visible session := List.mem_append_right _ haown
  obtain ⟨z, hz, hzmem, hzenv, hle⟩ := lastOf_some hvisible (haenv.trans hbenv.symm)
  have hover : Over z (computeAuditChain d (s.visible session) sequence entry) :=
    congrArg (Option.map AuditRow.rowHash) hz
  have hzenv' : z.environment = environment := hzenv.trans hbenv
  obtain hzrows | hzown := List.mem_append.mp hzmem
  · exact .inr ⟨z, mem_ofEnvironment.mpr ⟨hzrows, hzenv'⟩, hle⟩
  · have hsorted : (ofEnvironment environment (s.sessions session).rows).Pairwise
        fun a b => a.sequence < b.sequence := hn.increasing.filter _
    have hza : z = a := last_of_le hsorted ha (mem_ofEnvironment.mpr ⟨hzown, hzenv'⟩) hle
    exact .inl (hza ▸ hover)

/-- A commit that carries on the chain of its environments leaves them chained. -/
theorem chained_commit (hw : Waiting s.rows (s.sessions session))
    (hn : Numbered s.nextSequence (s.sessions session)) (environment : Environment)
    (hold : Chained (ofEnvironment environment s.rows))
    (hc : CarriesOn (ofEnvironment environment s.rows)
      (ofEnvironment environment (s.sessions session).rows)) :
    Chained (ofEnvironment environment (s.rows ++ (s.sessions session).rows)) := by
  rw [ofEnvironment_append]
  have hlinked : (ofEnvironment environment (s.sessions session).rows).IsChain Over := by
    refine (hw environment).imp_of_mem_imp fun a b ha _ hab => hab.resolve_right ?_
    rintro ⟨z, hz, hle⟩
    exact absurd (hc.later z hz a ha) (not_lt.mpr hle)
  refine ⟨List.pairwise_append.mpr ⟨hold.increasing, hn.increasing.filter _, hc.later⟩, ?_, hc.steady⟩
  exact hold.linked.append hlinked hc.linked

theorem orderly_step (h : Orderly s) (hm : Moves d s action s') (hc : Continues s action) : Orderly s' := by
  cases hm with
  | draw session hdrawn =>
    have hown := h.numbered session
    refine ⟨?_, forall_setSession session _ h.waiting (h.waiting session), h.chained⟩
    refine forall_setSession session _ (fun other => (h.numbered other).mono (Nat.le_succ _)) ?_
    refine ⟨fun n hn => ?_, fun row hrow => Nat.lt_succ_of_lt (hown.below row hrow), hown.increasing⟩
    obtain rfl := Option.some.inj hn
    exact ⟨Nat.lt_succ_self _, hown.below⟩
  | insert session entry sequence hdrawn =>
    have hown := h.numbered session
    obtain ⟨hnext, habove⟩ := hown.drawn sequence hdrawn
    refine ⟨forall_setSession session _ h.numbered ?_,
      forall_setSession session _ h.waiting (waiting_insert d hown (h.waiting session) sequence entry),
      h.chained⟩
    refine ⟨fun n hn => (by cases hn), fun row hrow => ?_, ?_⟩
    · obtain hold | hnew := List.mem_append.mp hrow
      · exact hown.below row hold
      · rw [List.mem_singleton.mp hnew]
        exact hnext
    · refine List.pairwise_append.mpr ⟨hown.increasing, List.pairwise_singleton _ _, ?_⟩
      intro row hrow new hnew
      rw [List.mem_singleton.mp hnew]
      exact habove row hrow
  | commit session =>
    refine ⟨forall_setSession session _ h.numbered (numbered_empty _),
      forall_setSession session _ (fun other => (h.waiting other).mono) (waiting_empty _), ?_⟩
    exact fun environment => chained_commit (h.waiting session) (h.numbered session) environment
      (h.chained environment) (hc environment)
  | rollback session =>
    exact ⟨forall_setSession session _ h.numbered (numbered_empty _),
      forall_setSession session _ h.waiting (waiting_empty _), h.chained⟩

/-- In a run whose commits carry on the chains, every environment is chained. -/
theorem after_orderly {actions : List Action} (hs : after d actions = some s)
    (h : Always (fun before action => ∀ u, after d before = some u → Continues u action) actions) :
    Orderly s := by
  have hall : ∀ u, after d actions = some u → Orderly u := by
    refine Always.induction (I := fun actions => ∀ u, after d actions = some u → Orderly u) ?_ ?_ h
    · rintro u hu
      cases hu
      exact ⟨fun _ => numbered_empty 1, fun _ => waiting_empty [],
        fun _ => ⟨.nil, .nil, steady_of_length (by simp [Database.empty, ofEnvironment])⟩⟩
    · intro before action hbefore hc u hu
      rw [after_append, Option.bind_eq_some_iff] at hu
      obtain ⟨v, hv, hlast⟩ := hu
      exact orderly_step d (hbefore v hv) (step_moves hlast) (hc v hv)
  exact hall s hs

theorem selects_iff {window : Window} {row : AuditRow H} :
    window.selects row = true ↔ row.environment.text = window.environment ∧
      window.start ≤ row.occurredAt ∧ row.occurredAt ≤ window.stop := by
  simp [Window.selects, and_assoc]

theorem environment_text_injective {a b : Environment} (h : a.text = b.text) : a = b := by
  cases a <;> cases b <;> simp [Environment.text] at h ⊢

/-- A window over steady instants chooses without a gap. -/
theorem gapless_of_steady {rows : List (AuditRow H)} (h : Steady rows) (window : Window)
    (henv : ∀ row ∈ rows, row.environment.text = window.environment) : Gapless window.selects rows := by
  intro a b c hs ha hc
  rw [selects_iff] at ha hc ⊢
  have hb : b ∈ rows := hs.subset (by simp)
  refine ⟨henv b hb, ?_⟩
  have hsteady := h a b c hs
  omega

theorem filter_selects {environment : Environment} {window : Window}
    (he : environment.text = window.environment) (rows : List (AuditRow H)) :
    rows.filter window.selects = (ofEnvironment environment rows).filter window.selects := by
  rw [ofEnvironment, List.filter_filter]
  refine List.filter_congr fun row _ => ?_
  by_cases hr : row.environment = environment
  · simp [hr]
  · have hn : window.selects row = false := by
      rw [Bool.eq_false_iff]
      exact fun hs => hr (environment_text_injective ((selects_iff.mp hs).1.trans he.symm))
    simp [hn]

/-- The rows of an environment that is chained come into the window as they stand. -/
theorem selection_eq {environment : Environment} {window : Window} {rows : List (AuditRow H)}
    (he : environment.text = window.environment) (h : Chained (ofEnvironment environment rows)) :
    window.selection rows = (ofEnvironment environment rows).filter window.selects := by
  rw [Window.selection, filter_selects he, bySequence_of_pairwise (h.increasing.filter _)]

/-- Where the environments are chained, every window selects a chain. -/
theorem selection_chain {rows : List (AuditRow H)}
    (h : ∀ environment, Chained (ofEnvironment environment rows)) (window : Window) :
    (window.selection rows).IsChain Over := by
  by_cases hw : ∃ environment : Environment, environment.text = window.environment
  · obtain ⟨environment, he⟩ := hw
    have hchained := h environment
    rw [selection_eq he hchained]
    refine isChain_filter hchained.linked (gapless_of_steady hchained.steady window fun row hrow => ?_)
    rw [(mem_ofEnvironment.mp hrow).2, he]
  · have hnone : rows.filter window.selects = [] :=
      List.filter_eq_nil_iff.mpr fun row _ hs => hw ⟨row.environment, (selects_iff.mp hs).1⟩
    rw [Window.selection, hnone]
    exact .nil

variable [DecidableEq H]

/-- In every run in which each commit carries on the chains of its environments,
no window of any state reached shows a divergence. -/
theorem no_false_alarm (actions : List Action) (hs : after d actions = some s)
    (h : Always (fun before action => ∀ u, after d before = some u → Continues u action) actions)
    (window : Window) : (verifyAuditChain d s.rows window).divergent = none := by
  have horderly := after_orderly d hs h
  refine verify_clean.mpr ⟨selection_chain horderly.chained window, fun row hrow => ?_⟩
  exact (after_sealed hs).1 row (List.mem_of_mem_filter (mem_bySequence.mp hrow))

def plainDigest : Digest String := ⟨id, id, toString⟩

def sampleEntry (id : String) (occurredAt : Int) : AuditEntry :=
  { id, environment := .PRODUCAO, occurredAt, actorType := .SYSTEM, actorId := none
    action := "account.create", outcome := .SUCCESS, resourceType := "account"
    resourceId := none, before := none, after := none, requestId := none }

def wholeWindow : Window := ⟨"PRODUCAO", 0, 9000⟩

/-- One insert after the other. -/
def serialRun : List Action :=
  [.draw 0, .insert 0 (sampleEntry "aud_1" 1000), .commit 0,
    .draw 1, .insert 1 (sampleEntry "aud_2" 2000), .commit 1]

/-- Two inserts at the same time: each reads the log before the other commits. -/
def concurrentRun : List Action :=
  [.draw 0, .draw 1, .insert 0 (sampleEntry "aud_1" 1000), .insert 1 (sampleEntry "aud_2" 2000),
    .commit 0, .commit 1]

theorem serialRun_carries_on : Always (fun before action => ∀ u, after plainDigest before = some u →
    Continues u action) serialRun := by
  have hfrom : AlwaysFrom (fun before action => ∀ u, after plainDigest before = some u →
      Continues u action) [] serialRun := by
    refine ⟨fun _ _ => trivial, fun _ _ => trivial, ?_, fun _ _ => trivial, fun _ _ => trivial, ?_, trivial⟩
    · intro u hu environment
      cases hu
      cases environment <;>
        exact ⟨by decide, by decide, steady_of_length (by decide)⟩
    · intro u hu environment
      cases hu
      cases environment <;>
        exact ⟨by decide, by decide, steady_of_length (by decide)⟩
  exact hfrom.always always_nil

theorem no_false_alarm_serial : (after plainDigest serialRun).isSome ∧
    ∀ s, after plainDigest serialRun = some s →
      (verifyAuditChain plainDigest s.rows wholeWindow).divergent = none :=
  ⟨by decide, fun _ hs => no_false_alarm plainDigest serialRun hs serialRun_carries_on wholeWindow⟩

/-- No row was altered or removed, and the second one is reported, whatever the digest. -/
theorem concurrent_inserts_alarm :
    ¬ ∃ (H : Type) (_ : DecidableEq H) (d : Digest H), ∀ (actions : List Action) (s : Database H),
      after d actions = some s → ∀ window, (verifyAuditChain d s.rows window).divergent = none := by
  rintro ⟨H, _, d, h⟩
  have hclean := (verify_clean.mp (h concurrentRun _ rfl wholeWindow)).1
  have hlinked : Over (computeAuditChain d [] 1 (sampleEntry "aud_1" 1000))
      (computeAuditChain d [] 2 (sampleEntry "aud_2" 2000)) := (List.isChain_cons_cons.mp hclean).1
  cases hlinked

end BaasConnector.Audit.Alarms
