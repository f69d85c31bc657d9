import BaasConnector.Reconciliation.Adjustment

namespace BaasConnector.Reconciliation.OpenBreaks

open BaasConnector.Lib.Keyed BaasConnector.Connector.Records
open BaasConnector.Taxonomy.Status (Environment)
open BaasConnector.Reconciliation.Items BaasConnector.Reconciliation.Adjustment

/-- The unique index of the stored breaks. -/
structure BreakIdentity where
  connectionId : String
  type : BreakType
  effectiveDate : String
  dedupeKey : String
deriving DecidableEq, Repr

structure BreakUpsertRow extends BreakNote where
  id : String
  environment : Environment
  runId : String
  connectionId : String
  accountId : String
  type : BreakType
  severity : BreakSeverity
  dedupeKey : String
  effectiveDate : String
  endToEndId : Option String
  amountCents : Option Int
  deltaCents : Option Int
  providerItemId : Option String
  localItemId : Option String
  ledgerItemId : Option String
deriving DecidableEq, Repr

structure StoredBreak extends BreakUpsertRow where
  status : BreakStatus
  firstSeenRunId : String
  ageDays : Int
  createdAt : Int
  resolvedAt : Option Int
deriving DecidableEq, Repr

def BreakUpsertRow.identity (row : BreakUpsertRow) : BreakIdentity :=
  ⟨row.connectionId, row.type, row.effectiveDate, row.dedupeKey⟩

abbrev Breaks := Rows BreakIdentity StoredBreak fun row => row.toBreakUpsertRow.identity

structure UpsertedBreak where
  id : String
  dedupeKey : String
  inserted : Bool
deriving DecidableEq, Repr

/-- A resolved break that recurs is open again: the repair did not hold. -/
def reopened : BreakStatus → BreakStatus
  | .RESOLVED | .AUTO_RESOLVED => .OPEN
  | kept => kept

def newBreak (now : Int) (row : BreakUpsertRow) : StoredBreak :=
  { row with
    status := .OPEN
    firstSeenRunId := row.runId
    ageDays := 0
    createdAt := now
    resolvedAt := none }

/-- The run that saw a break first is not moved. -/
def refresh (now : Int) (row : BreakUpsertRow) (existing : StoredBreak) : StoredBreak :=
  { existing with
    runId := row.runId
    severity := row.severity
    amountCents := row.amountCents
    deltaCents := row.deltaCents
    toBreakNote := row.toBreakNote
    ageDays := max 0 ((now - existing.createdAt) / 86400000)
    status := reopened existing.status }

def upsertOne (now : Int) (row : BreakUpsertRow) (breaks : Breaks) : Breaks × UpsertedBreak :=
  match breaks.get row.identity with
  | none => (breaks.put (newBreak now row), ⟨row.id, row.dedupeKey, true⟩)
  | some existing => (breaks.put (refresh now row existing), ⟨existing.id, row.dedupeKey, false⟩)

def upsertMany (now : Int) : List BreakUpsertRow → Breaks → Breaks × List UpsertedBreak
  | [], breaks => (breaks, [])
  | row :: rows, breaks =>
    let (breaks, result) := upsertOne now row breaks
    let (breaks, results) := upsertMany now rows breaks
    (breaks, result :: results)

structure CloseInput where
  environment : Environment
  connectionId : String
  accountId : String
  fromDate : String
  toDate : String
  keepDedupeKeys : List String
  closedAt : Int

/-- The rows of the examined window that the run has not reported again. -/
def CloseInput.closes (input : CloseInput) (row : StoredBreak) : Bool :=
  row.environment = input.environment && row.connectionId = input.connectionId &&
    row.accountId = input.accountId && input.fromDate ≤ row.effectiveDate &&
    row.effectiveDate ≤ input.toDate && (row.status = .OPEN || row.status = .INVESTIGATING) &&
    !input.keepDedupeKeys.contains row.dedupeKey

def CloseInput.close (input : CloseInput) (row : StoredBreak) : StoredBreak :=
  if input.closes row then { row with status := .AUTO_RESOLVED, resolvedAt := some input.closedAt } else row

theorem CloseInput.close_identity (input : CloseInput) (row : StoredBreak) :
    (input.close row).identity = row.identity := by
  unfold CloseInput.close
  split <;> rfl

def closeNotRecurring (input : CloseInput) (breaks : Breaks) : Breaks × Nat :=
  (breaks.updateMany input.close input.close_identity, breaks.table.values.countP input.closes)

structure RunRecord where
  id : String
  environment : Environment
  connectionId : String
  accountId : String
  windowStart : Int
  windowEnd : Int

def toUpsertRow (run : RunRecord) (id : String) (draft : BreakDraft) : BreakUpsertRow :=
  { toBreakNote := draft.toBreakNote, id, environment := run.environment, runId := run.id
    connectionId := run.connectionId, accountId := run.accountId, type := draft.type, severity := draft.severity
    dedupeKey := draft.dedupeKey, effectiveDate := draft.effectiveDate, endToEndId := draft.endToEndId
    amountCents := draft.amountCents, deltaCents := draft.deltaCents
    providerItemId := draft.providerItemId, localItemId := draft.localItemId
    ledgerItemId := draft.ledgerItemId }

def upsertRows (newId : Nat → String) (run : RunRecord) (drafts : List BreakDraft) : List BreakUpsertRow :=
  drafts.mapIdx fun i draft => toUpsertRow run (newId i) draft

/-- What a run leaves of the stored breaks, and the breaks it announces: those
that it has seen first. -/
def persist (toDay : Int → String) (newId : Nat → String) (now : Int) (run : RunRecord)
    (drafts : List BreakDraft) (breaks : Breaks) : Breaks × List UpsertedBreak :=
  let rows := upsertRows newId run drafts
  let (breaks, results) := upsertMany now rows breaks
  ((closeNotRecurring
    { environment := run.environment, connectionId := run.connectionId, accountId := run.accountId
      fromDate := toDay run.windowStart, toDate := toDay run.windowEnd
      keepDedupeKeys := rows.map (·.dedupeKey), closedAt := now } breaks).1,
    results.filter (·.inserted))

section Upsert

variable {now : Int} {row : BreakUpsertRow} {rows : List BreakUpsertRow} {breaks : Breaks}
  {identity : BreakIdentity} {environment : Environment} {accountId : String}

theorem stored_identity {row : StoredBreak} (h : breaks.get identity = some row) : row.identity = identity :=
  breaks.keyed identity row h

theorem reopened_idem (status : BreakStatus) : reopened (reopened status) = reopened status := by
  cases status <;> rfl

/-- The status of a reported break, from the row it had. -/
def statusAfter (row : Option StoredBreak) : BreakStatus := row.elim .OPEN fun row => reopened row.status

/-- A row keeps its environment and its account when it is reported again. -/
structure Recorded (environment : Environment) (accountId : String) (before : Option StoredBreak)
    (row : StoredBreak) : Prop where
  status : row.status = statusAfter before
  environment : row.environment = before.elim environment (·.environment)
  accountId : row.accountId = before.elim accountId (·.accountId)

theorem Recorded.again {before : Option StoredBreak} {row row' : StoredBreak}
    (h : Recorded environment accountId before row) (h' : Recorded environment accountId (some row) row') :
    Recorded environment accountId before row' := by
  refine ⟨h'.status.trans ?_, h'.environment.trans h.environment, h'.accountId.trans h.accountId⟩
  change reopened row.status = _
  rw [h.status]
  cases before with
  | none => rfl
  | some first => exact reopened_idem first.status

theorem upsertOne_self (now : Int) (breaks : Breaks) (henvironment : row.environment = environment)
    (haccount : row.accountId = accountId) :
    ∃ after, (upsertOne now row breaks).1.get row.identity = some after ∧
      Recorded environment accountId (breaks.get row.identity) after := by
  unfold upsertOne
  cases h : breaks.get row.identity with
  | none => exact ⟨newBreak now row, Rows.get_put_self breaks (newBreak now row), rfl, henvironment, haccount⟩
  | some existing =>
    have hexisting : existing.identity = row.identity := stored_identity h
    have hkey : (refresh now row existing).identity = row.identity := hexisting
    refine ⟨refresh now row existing, ?_, rfl, rfl, rfl⟩
    rw [← hkey]
    exact Rows.get_put_self breaks (refresh now row existing)

theorem upsertOne_ne (h : identity ≠ row.identity) :
    (upsertOne now row breaks).1.get identity = breaks.get identity := by
  unfold upsertOne
  cases hrow : breaks.get row.identity with
  | none => exact Rows.get_put_ne breaks (newBreak now row) h
  | some existing =>
    have hexisting : existing.identity = row.identity := stored_identity hrow
    have hkey : (refresh now row existing).identity = row.identity := hexisting
    exact Rows.get_put_ne breaks (refresh now row existing) (hkey ▸ h)

theorem upsertMany_ne (h : ∀ row ∈ rows, identity ≠ row.identity) :
    (upsertMany now rows breaks).1.get identity = breaks.get identity := by
  induction rows generalizing breaks with
  | nil => rfl
  | cons row rows ih =>
    obtain ⟨hrow, hrows⟩ := List.forall_mem_cons.mp h
    exact (ih hrows).trans (upsertOne_ne hrow)

theorem upsertMany_reported (hscope : ∀ row ∈ rows, row.environment = environment ∧ row.accountId = accountId)
    (h : ∃ row ∈ rows, row.identity = identity) :
    ∃ after, (upsertMany now rows breaks).1.get identity = some after ∧
      Recorded environment accountId (breaks.get identity) after := by
  induction rows generalizing breaks with
  | nil =>
    obtain ⟨row, hrow, -⟩ := h
    cases hrow
  | cons row rows ih =>
    obtain ⟨⟨henvironment, haccount⟩, hrows⟩ := List.forall_mem_cons.mp hscope
    change ∃ after, (upsertMany now rows (upsertOne now row breaks).1).1.get identity = some after ∧ _
    by_cases hrest : ∃ row ∈ rows, row.identity = identity
    · obtain ⟨after, hafter, hrecorded⟩ := @ih (upsertOne now row breaks).1 hrows hrest
      refine ⟨after, hafter, ?_⟩
      by_cases hself : row.identity = identity
      · obtain ⟨first, hfirst, hrecorded'⟩ := upsertOne_self now breaks henvironment haccount
        rw [hself] at hfirst hrecorded'
        rw [hfirst] at hrecorded
        exact hrecorded'.again hrecorded
      · rw [upsertOne_ne (Ne.symm hself)] at hrecorded
        exact hrecorded
    · have hself : row.identity = identity := by
        obtain ⟨other, hother, he⟩ := h
        obtain rfl | hmem := List.mem_cons.mp hother
        · exact he
        · exact absurd ⟨other, hmem, he⟩ hrest
      rw [upsertMany_ne fun other hother he => hrest ⟨other, hother, he.symm⟩, ← hself]
      exact upsertOne_self now breaks henvironment haccount

end Upsert

section Mirror

variable (toDay : Int → String) (newId : Nat → String) (now : Int) (run : RunRecord)
  (drafts : List BreakDraft) (stored : Breaks)

def draftIdentity (draft : BreakDraft) : BreakIdentity :=
  ⟨run.connectionId, draft.type, draft.effectiveDate, draft.dedupeKey⟩

def Reported (identity : BreakIdentity) : Prop := ∃ draft ∈ drafts, draftIdentity run draft = identity

/-- The key of the break is also reported under another type or date. -/
def Elsewhere (identity : BreakIdentity) : Prop :=
  ∃ draft ∈ drafts, draft.dedupeKey = identity.dedupeKey ∧ draftIdentity run draft ≠ identity

def InWindow (effectiveDate : String) : Prop :=
  toDay run.windowStart ≤ effectiveDate ∧ effectiveDate ≤ toDay run.windowEnd

/-- The row is of the window and the scope of the run. -/
structure InScope (row : StoredBreak) : Prop where
  environment : row.environment = run.environment
  connectionId : row.connectionId = run.connectionId
  accountId : row.accountId = run.accountId
  window : InWindow toDay run row.effectiveDate

def Opened (breaks : Breaks) (identity : BreakIdentity) : Prop :=
  ∃ row, breaks.get identity = some row ∧ InScope toDay run row ∧ row.status = .OPEN

/-- The break is under investigation, or written off. -/
def Held (identity : BreakIdentity) : Prop :=
  ∃ row, stored.get identity = some row ∧ (row.status = .INVESTIGATING ∨ row.status = .WRITTEN_OFF)

/-- The break is new, or its row is of the account of the run. -/
def Own (identity : BreakIdentity) : Prop :=
  ∀ row, stored.get identity = some row → row.environment = run.environment ∧ row.accountId = run.accountId

variable {toDay newId now run drafts stored} {identity : BreakIdentity}

theorem mem_upsertRows {row : BreakUpsertRow} (h : row ∈ upsertRows newId run drafts) :
    ∃ draft ∈ drafts, ∃ id, row = toUpsertRow run id draft := by
  obtain ⟨i, hi, he⟩ := List.mem_mapIdx.mp h
  exact ⟨drafts[i], List.getElem_mem hi, newId i, he.symm⟩

theorem reported_row (h : Reported run drafts identity) :
    ∃ row ∈ upsertRows newId run drafts, row.identity = identity := by
  obtain ⟨draft, hdraft, he⟩ := h
  obtain ⟨i, hi, rfl⟩ := List.getElem_of_mem hdraft
  exact ⟨_, List.mem_mapIdx.mpr ⟨i, hi, rfl⟩, he⟩

theorem statusAfter_open {before : Option StoredBreak} :
    statusAfter before = .OPEN ↔
      ¬ ∃ row, before = some row ∧ (row.status = .INVESTIGATING ∨ row.status = .WRITTEN_OFF) := by
  cases before with
  | none => simp [statusAfter]
  | some row => cases hs : row.status <;> simp [statusAfter, reopened, hs]

/-- What the run has closed is not reported by it. -/
def runClose (toDay : Int → String) (newId : Nat → String) (now : Int) (run : RunRecord)
    (drafts : List BreakDraft) : CloseInput :=
  { environment := run.environment, connectionId := run.connectionId, accountId := run.accountId
    fromDate := toDay run.windowStart, toDate := toDay run.windowEnd
    keepDedupeKeys := (upsertRows newId run drafts).map (·.dedupeKey), closedAt := now }

theorem persist_get : (persist toDay newId now run drafts stored).1.get identity =
    ((upsertMany now (upsertRows newId run drafts) stored).1.get identity).map
      (runClose toDay newId now run drafts).close :=
  Rows.get_updateMany _ (runClose toDay newId now run drafts).close (CloseInput.close_identity _) identity

variable (toDay newId now run) in
theorem keeps_iff {key : String} :
    key ∈ (runClose toDay newId now run drafts).keepDedupeKeys ↔ ∃ draft ∈ drafts, draft.dedupeKey = key := by
  constructor
  · intro h
    obtain ⟨row, hrow, rfl⟩ := List.mem_map.mp h
    obtain ⟨draft, hdraft, id, rfl⟩ := mem_upsertRows hrow
    exact ⟨draft, hdraft, rfl⟩
  · rintro ⟨draft, hdraft, rfl⟩
    have hreported : Reported run drafts (draftIdentity run draft) := ⟨draft, hdraft, rfl⟩
    obtain ⟨row, hrow, he⟩ : ∃ row ∈ upsertRows newId run drafts, row.identity = draftIdentity run draft :=
      reported_row hreported
    exact List.mem_map.mpr ⟨row, hrow, congrArg BreakIdentity.dedupeKey he⟩

theorem close_kept {row : StoredBreak} (h : ∃ draft ∈ drafts, draft.dedupeKey = row.dedupeKey) :
    (runClose toDay newId now run drafts).close row = row := by
  have hkeep := (keeps_iff toDay newId now run).mpr h
  simp [CloseInput.close, CloseInput.closes, hkeep]

theorem close_open {row : StoredBreak}
    (hopen : ((runClose toDay newId now run drafts).close row).status = .OPEN) :
    (runClose toDay newId now run drafts).close row = row ∧
      (runClose toDay newId now run drafts).closes row = false := by
  unfold CloseInput.close at hopen ⊢
  cases hcloses : (runClose toDay newId now run drafts).closes row with
  | false => exact ⟨rfl, rfl⟩
  | true =>
    rw [hcloses] at hopen
    cases hopen

theorem closes_false {row : StoredBreak} (hscope : InScope toDay run row) (hopen : row.status = .OPEN)
    (h : (runClose toDay newId now run drafts).closes row = false) :
    ∃ draft ∈ drafts, draft.dedupeKey = row.dedupeKey := by
  apply (keeps_iff toDay newId now run).mp
  have henvironment := hscope.environment
  have hconnection := hscope.connectionId
  have haccount := hscope.accountId
  obtain ⟨hstart, hfinish⟩ := hscope.window
  simp_all [CloseInput.closes, runClose]

variable (toDay newId now stored) in
/-- The row of a reported break is not closed by the run that reports it. -/
theorem persist_reported (hreported : Reported run drafts identity) :
    ∃ row, (persist toDay newId now run drafts stored).1.get identity = some row ∧ row.identity = identity ∧
      Recorded run.environment run.accountId (stored.get identity) row := by
  have hscope : ∀ row ∈ upsertRows newId run drafts,
      row.environment = run.environment ∧ row.accountId = run.accountId := by
    intro row hrow
    obtain ⟨draft, -, id, rfl⟩ := mem_upsertRows hrow
    exact ⟨rfl, rfl⟩
  obtain ⟨row, hrow, hrecorded⟩ : ∃ row,
      (upsertMany now (upsertRows newId run drafts) stored).1.get identity = some row ∧
        Recorded run.environment run.accountId (stored.get identity) row :=
    upsertMany_reported hscope (reported_row hreported)
  have hidentity := stored_identity hrow
  refine ⟨row, ?_, hidentity, hrecorded⟩
  obtain ⟨draft, hdraft, he⟩ := hreported
  rw [persist_get, hrow, Option.map_some, close_kept ⟨draft, hdraft, ?_⟩]
  exact congrArg BreakIdentity.dedupeKey (he.trans hidentity.symm)

/-- The breaks of the window and the scope that are open after a run are the
reported ones that are not held: a resolved break that recurs is open again, and
what stays open has a key that the run has reported. -/
theorem open_breaks_mirror (toDay : Int → String) (newId : Nat → String) (now : Int) (run : RunRecord)
    (drafts : List BreakDraft) (stored : Breaks) (identity : BreakIdentity) :
    (Reported run drafts identity → InWindow toDay run identity.effectiveDate → Own run stored identity →
      (Opened toDay run (persist toDay newId now run drafts stored).1 identity ↔ ¬ Held stored identity)) ∧
    (Opened toDay run (persist toDay newId now run drafts stored).1 identity →
      ¬ Elsewhere run drafts identity → Reported run drafts identity) := by
  constructor
  · intro hreported hwindow hown
    obtain ⟨row, hrow, hidentity, hrecorded⟩ := persist_reported toDay newId now stored hreported
    have hconnection : run.connectionId = identity.connectionId := by
      obtain ⟨draft, -, he⟩ := hreported
      exact congrArg BreakIdentity.connectionId he
    have hscope : InScope toDay run row := by
      refine ⟨?_, ?_, ?_, ?_⟩
      · rw [hrecorded.environment]
        cases hbefore : stored.get identity with
        | none => rfl
        | some before => exact (hown before hbefore).1
      · exact (congrArg BreakIdentity.connectionId hidentity).trans hconnection.symm
      · rw [hrecorded.accountId]
        cases hbefore : stored.get identity with
        | none => rfl
        | some before => exact (hown before hbefore).2
      · have hdate : row.effectiveDate = identity.effectiveDate :=
          congrArg BreakIdentity.effectiveDate hidentity
        rw [hdate]
        exact hwindow
    unfold Opened Held
    rw [← statusAfter_open, ← hrecorded.status]
    constructor
    · rintro ⟨row', hrow', -, hopen⟩
      rw [hrow, Option.some.injEq] at hrow'
      rw [hrow']
      exact hopen
    · exact fun hopen => ⟨row, hrow, hscope, hopen⟩
  · rintro ⟨row', hget, hscope, hopen⟩ helse
    rw [persist_get] at hget
    obtain ⟨row, hrow, rfl⟩ := Option.map_eq_some_iff.mp hget
    obtain ⟨hsame, hcloses⟩ := close_open hopen
    rw [hsame] at hscope hopen
    obtain ⟨draft, hdraft, hkey⟩ := closes_false hscope hopen hcloses
    by_contra hnot
    have hidentity := stored_identity hrow
    exact helse ⟨draft, hdraft, by rw [hkey, ← hidentity]; rfl, fun he => hnot ⟨draft, hdraft, he⟩⟩

/-- A person has resolved the break, or accepted it. -/
def ByPerson (stored : Breaks) (identity : BreakIdentity) : Prop :=
  ∃ row, stored.get identity = some row ∧ (row.status = .RESOLVED ∨ row.status = .WRITTEN_OFF)

def sampleRun : RunRecord := ⟨"run_2", .PRODUCAO, "con_1", "acc_1", 0, 0⟩

def resolvedBreak : StoredBreak :=
  { newBreak 0 (toUpsertRow sampleRun "brk_1" (mismatchBreak .CREDIT)) with status := .RESOLVED }

/-- A break that a person has resolved is open again after the run that reports
it once more. -/
theorem resolved_break_reopens :
    ¬ ∀ (toDay : Int → String) (newId : Nat → String) (now : Int) (run : RunRecord)
      (drafts : List BreakDraft) (stored : Breaks) (type : BreakType) (dedupeKey : String),
      (∃ effectiveDate, Opened toDay run (persist toDay newId now run drafts stored).1
        ⟨run.connectionId, type, effectiveDate, dedupeKey⟩) ↔
      ∃ draft ∈ drafts, draft.type = type ∧ draft.dedupeKey = dedupeKey ∧
        InWindow toDay run draft.effectiveDate ∧ ¬ ByPerson stored (draftIdentity run draft) := by
  intro h
  have hiff := h (fun _ => "2026-01-01") (fun _ => "brk_2") 1 sampleRun [mismatchBreak .CREDIT]
    (Rows.empty.put resolvedBreak) (mismatchBreak .CREDIT).type (mismatchBreak .CREDIT).dedupeKey
  have hopened : Opened (fun _ => "2026-01-01") sampleRun
      (persist (fun _ => "2026-01-01") (fun _ => "brk_2") 1 sampleRun [mismatchBreak .CREDIT]
        (Rows.empty.put resolvedBreak)).1 (draftIdentity sampleRun (mismatchBreak .CREDIT)) :=
    ⟨{ resolvedBreak with status := .OPEN }, by decide, ⟨rfl, rfl, rfl, by decide, by decide⟩, rfl⟩
  obtain ⟨draft, hdraft, -, -, -, hperson⟩ := hiff.mp ⟨"2026-01-01", hopened⟩
  rw [List.mem_singleton.mp hdraft] at hperson
  exact hperson ⟨resolvedBreak, rfl, .inl rfl⟩

end Mirror

end BaasConnector.Reconciliation.OpenBreaks
