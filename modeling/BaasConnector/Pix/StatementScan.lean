import BaasConnector.Pix.ResolutionEvents

namespace BaasConnector.Pix.StatementScan

open BaasConnector.Lib.Keyed hiding lookup
open BaasConnector.Lib.Effects BaasConnector.Taxonomy.Status BaasConnector.Taxonomy.Errors
open BaasConnector.Connector.Records BaasConnector.Connector.Calls BaasConnector.Connector.Database
open BaasConnector.Connector.Replies BaasConnector.Connector.Calm BaasConnector.Pix.HoldResolution
open BaasConnector.Pix.OperationReconciler BaasConnector.Pix.Convergence
open BaasConnector.Pix.ResolutionEvents

section Scan

variable (w : World) (t : TransactionRecord)

/-- What the scan compares: a debit of the amount. -/
def matchesLine (line : StatementLine) : Bool := line.debit && line.amountCents == t.amountCents

/-- The entry that the scan takes from the page it has read. -/
def scanned (page : List StatementLine) : Option StatementLine :=
  match page.filter (matchesLine t) with
  | [line] => some line
  | _ => none

/-- The entry is another local transaction's, by the provider's id or by the
end-to-end id. -/
def linked (line : StatementLine) : Bool :=
  (w.transactions.search fun u => u.id != t.id &&
    ((u.provider == t.provider && taken u.providerTransactionId line.providerTransactionId) ||
      taken u.endToEndId line.endToEndId)).isSome

/-- The entry moves the amount of the transaction its way. -/
def Moves (line : StatementLine) : Prop :=
  line.debit = decide (t.direction = .DEBIT) ∧ line.amountCents = t.amountCents

instance (line : StatementLine) : Decidable (Moves t line) := inferInstanceAs (Decidable (_ ∧ _))

/-- Of all pages of the day, the entry is the only one of the amount and the
direction that is not linked. -/
def Attributed (pages : List (List StatementLine)) (line : StatementLine) : Prop :=
  pages.flatten.filter (fun l => decide (Moves t l) && !linked w t l) = [line]

/-- The debits of the amount are free on the page that is read, and linked on the others. -/
structure ScanSound (page : List StatementLine) (rest : List (List StatementLine)) : Prop where
  outgoing : t.direction = .DEBIT
  free : ∀ line ∈ page, matchesLine t line = true → linked w t line = false
  others : ∀ line ∈ rest.flatten, matchesLine t line = true → linked w t line = true

variable {w t} {page : List StatementLine} {rest : List (List StatementLine)} {line : StatementLine}

theorem scanned_eq_some : scanned t page = some line ↔ page.filter (matchesLine t) = [line] := by
  unfold scanned
  cases page.filter (matchesLine t) with
  | nil => simp
  | cons first others => cases others <;> simp

theorem byStatement_scanned {remote : Remote} {bound : BoundProvider} {found : PixTransaction}
    (hlines : remote.lines = .ok page) (h : remote.byStatement bound t = some found) :
    ∃ line, scanned t page = some line ∧ found = ofStatementLine line := by
  unfold Remote.byStatement at h
  by_cases hb : bound.statement = true
  · rw [if_pos hb, hlines] at h
    simp only [Except.toOption, Option.bind_some] at h
    cases hf : page.filter fun line => line.debit && line.amountCents == t.amountCents with
    | nil => simp [hf] at h
    | cons line others =>
      cases others with
      | nil =>
        rw [hf] at h
        exact ⟨line, scanned_eq_some.mpr hf, (Option.some.inj h).symm⟩
      | cons second others => simp [hf] at h
  · simp [hb] at h

theorem moves_iff (ht : t.direction = .DEBIT) (line : StatementLine) :
    decide (Moves t line) = matchesLine t line := by
  rw [Bool.eq_iff_iff]
  simp [Moves, matchesLine, ht]

/-- The entry that was taken is the only one to take exactly when the page shows
no linked debit of the amount and the other pages no free one. -/
theorem attributed_iff (h : scanned t page = some line) :
    Attributed w t (page :: rest) line ↔ ScanSound w t page rest := by
  have hpage := scanned_eq_some.mp h
  have hline : line ∈ page ∧ matchesLine t line = true := by
    have hmem : line ∈ page.filter (matchesLine t) := by simp [hpage]
    exact List.mem_filter.mp hmem
  have hdebit : line.debit = true := by
    have := hline.2
    simp only [matchesLine, Bool.and_eq_true] at this
    exact this.1
  by_cases ht : t.direction = .DEBIT
  · have hsplit : (page :: rest).flatten.filter (fun l => decide (Moves t l) && !linked w t l) =
        ([line].filter fun l => !linked w t l) ++
          rest.flatten.filter (fun l => matchesLine t l && !linked w t l) := by
      rw [List.flatten_cons, List.filter_append]
      simp only [moves_iff ht]
      rw [← hpage, List.filter_filter]
      congr 1
      exact List.filter_congr fun l _ => Bool.and_comm _ _
    unfold Attributed
    rw [hsplit]
    constructor
    · intro heq
      have hfree : linked w t line = false := by
        have hmem : line ∈ ([line].filter fun l => !linked w t l) ++
            rest.flatten.filter (fun l => matchesLine t l && !linked w t l) := by
          rw [heq]
          exact List.mem_singleton_self line
        obtain hl | hr := List.mem_append.mp hmem
        · simpa using (List.mem_filter.mp hl).2
        · have hboth := (List.mem_filter.mp hr).2
          simp only [Bool.and_eq_true, Bool.not_eq_true'] at hboth
          exact hboth.2
      rw [List.filter_singleton, hfree] at heq
      refine ⟨ht, fun l hl hmatch => ?_, fun l hl hmatch => ?_⟩
      · have hmem : l ∈ page.filter (matchesLine t) := List.mem_filter.mpr ⟨hl, hmatch⟩
        rw [hpage, List.mem_singleton] at hmem
        rw [hmem]
        exact hfree
      · have hnil : rest.flatten.filter (fun l => matchesLine t l && !linked w t l) = [] := by
          simpa using heq
        have hnot := List.filter_eq_nil_iff.mp hnil l hl
        simpa [hmatch] using hnot
    · intro hsound
      have hfree := hsound.free line hline.1 hline.2
      have hnil : rest.flatten.filter (fun l => matchesLine t l && !linked w t l) = [] := by
        apply List.filter_eq_nil_iff.mpr
        intro l hl hboth
        rw [Bool.and_eq_true] at hboth
        rw [hsound.others l hl hboth.1] at hboth
        exact absurd hboth.2 (by decide)
      rw [hnil, List.filter_singleton, hfree]
      rfl
  · refine iff_of_false (fun heq => ?_) fun hsound => ht hsound.outgoing
    have hmem : line ∈ (page :: rest).flatten.filter (fun l => decide (Moves t l) && !linked w t l) := by
      rw [show _ = [line] from heq]
      exact List.mem_singleton_self line
    have hboth := (List.mem_filter.mp hmem).2
    simp [Moves, hdebit, ht] at hboth

end Scan

section Resolve

variable {remote : Remote} {w w' : World} {operationId : String} {operation : OperationRecord}
  {t : TransactionRecord} {found : PixTransaction} {status : TransactionStatus} {record : TransactionRecord}

theorem applyOutcome_answers (operation : OperationRecord) (t : TransactionRecord) (found : PixTransaction) :
    (applyOutcome operation t found).Meets (fun _ _ => True) (fun _ => True)
      (onResult (fun outcome => ∃ record, outcome = .resolved found.status record) fun _ => True) := by
  unfold applyOutcome recordOutcome
  rw [Prog.bind_eq, Prog.meets_perform_bind]
  refine ⟨trivial, fun now _ => Prog.meets_bind.mpr ?_, fun _ _ => trivial⟩
  refine Prog.meets_mono (fun _ _ h => h) (fun _ h => h) (fun r _ => ?_) (Prog.meets_true fun _ => trivial)
  cases r with
  | error e => trivial
  | ok posted =>
    simp only [onResult_ok, Prog.bind_eq, Prog.meets_perform_bind]
    refine ⟨trivial, fun change _ => ?_, fun _ _ => trivial⟩
    refine ⟨trivial, fun _ _ => ⟨trivial, fun _ _ => ?_, fun _ _ => trivial⟩, fun _ _ => trivial⟩
    cases change with
    | applied record => exact ⟨record, rfl⟩
    | rejected reason current => exact ⟨t, rfl⟩

theorem wp_applyOutcome_answers (operation : OperationRecord) (t : TransactionRecord)
    (found : PixTransaction) :
    (applyOutcome operation t found).wp (calm remote.answers)
      (fun r _ => ∀ status record, r = .ok (.resolved status record) → found.status = status) w := by
  refine Prog.wp_mono _ (Prog.wp_of_meets (R := fun _ _ => True) (fun _ => trivial) (fun _ _ => trivial)
    (fun _ _ => ⟨trivial, trivial⟩) (applyOutcome_answers operation t found) w)
      fun r w' hr status record hok => ?_
  rw [hok] at hr
  obtain ⟨record', he⟩ := hr.1
  cases he
  rfl

/-- A run that resolves the operation has taken what the lookups came to. -/
theorem wp_resolve_found (hoperation : w.operations.get operationId = some operation)
    (ht : operationTransaction w operation = some t) :
    (resolve operationId).wp (calm remote.answers) (fun r _ => ∀ status record,
      r = .ok (.resolved status record) → operation.status.isStuck = true ∧
        ∃ found, remote.lookup w.provider t = some found ∧ found.status = status) w := by
  unfold resolve
  refine wp_fixed (fun _ _ => congrArg (fun o => reply o w) hoperation) ?_
  rw [Prog.onOk_ok]
  by_cases hstuck : operation.status.isStuck = true
  · simp only [hstuck, not_true_eq_false, if_false]
    refine wp_fixed (fun _ _ => congrArg (fun t => reply t w) ht) ?_
    rw [Prog.onOk_ok]
    refine wp_fixed (fun _ _ => rfl) ?_
    rw [Prog.onOk_ok]
    cases (w.accounts.get t.accountId).bind (·.providerAccountId) with
    | none => exact fun status record h => by cases h
    | some providerAccountId =>
      refine wp_fixed (fun _ _ => rfl) ?_
      rw [Prog.onOk_ok]
      refine wp_fixed (fun _ _ => by unfold respond; simp only [World.updateOperation, hoperation]; rfl) ?_
      rw [Prog.onOk_ok, Prog.bind_eq, Prog.wp_bind]
      refine Prog.wp_mono _ wp_lookup fun r w' hr => ?_
      obtain ⟨rfl, rfl⟩ := hr
      rw [Prog.onOk_ok]
      cases hlookup : remote.lookup w.provider t with
      | none =>
        dsimp only
        split <;> exact fun status record h => by cases h
      | some found =>
        refine Prog.wp_mono _ (wp_applyOutcome_answers operation t found) fun r w' hr status record hok => ?_
        exact ⟨trivial, found, rfl, hr status record hok⟩
  · simp only [hstuck]
    exact fun status record h => by cases h

/-- An operation that a run has resolved from the statement of its day is
settled by one entry of the first page. Of the whole day that is the only entry
it can be exactly when the links of the statement's debits say so. -/
theorem scan_attributes_iff {page : List StatementLine} (rest : List (List StatementLine))
    (hrun : (resolve operationId).Runs (calm remote.answers) w (.ok (.resolved status record)) w')
    (hoperation : w.operations.get operationId = some operation)
    (ht : operationTransaction w operation = some t)
    (hexact : remote.byKey w.provider = none ∧ remote.byReference w.provider t = none)
    (hlines : remote.lines = .ok page) :
    ∃ line, scanned t page = some line ∧ remote.lookup w.provider t = some (ofStatementLine line) ∧
      (Attributed w t (page :: rest) line ↔ ScanSound w t page rest) := by
  obtain ⟨-, found, hlookup, -⟩ := hrun.of_wp (wp_resolve_found hoperation ht) status record rfl
  have hstatement : remote.byStatement w.provider t = some found := by
    rw [Remote.lookup, hexact.1, hexact.2] at hlookup
    exact hlookup
  obtain ⟨line, hscanned, rfl⟩ := byStatement_scanned hlines hstatement
  exact ⟨line, hscanned, hlookup, attributed_iff hscanned⟩

end Resolve

section Sample

def debitLine : StatementLine := ⟨"pen_9", some "ptx_9", none, true, 6000, 1500⟩

/-- The provider knows neither the key nor a reference, and shows one debit of the day. -/
def scanRemote : Remote := ⟨2000, .ok none, .error (.failure ""), .ok [debitLine]⟩

/-- The other payment of 60.00 that day, which the provider's entry belongs to. -/
def otherPayment : TransactionRecord :=
  { sentTransfer .SETTLED with
    id := "txn_2", idempotencyKey := some "opr_2", providerTransactionId := some "ptx_9", endToEndId := none }

def linkedWorld : World := { unknownWorld with transactions := unknownWorld.transactions.put otherPayment }

def scanRun (w : World) : Option (Except Thrown ReconcileOutcome × World) :=
  (resolve unknownTransfer.id).play (fun c => respond (choiceOf scanRemote c))
    (List.replicate 12 { mint := sampleMint "ltx_5" }) w

def resolvedTo : Except Thrown ReconcileOutcome → Option TransactionStatus
  | .ok (.resolved status _) => some status
  | _ => none

theorem scan_resolves {w : World} (h : (scanRun w).bind (fun x => resolvedTo x.1) = some .SETTLED) :
    ∃ record w', (resolve unknownTransfer.id).Runs (calm scanRemote.answers) w
      (.ok (.resolved .SETTLED record)) w' := by
  obtain ⟨⟨r, w'⟩, hplay, hr⟩ := Option.bind_eq_some_iff.mp h
  cases r with
  | error e => cases hr
  | ok outcome =>
    cases outcome with
    | unresolved reason => cases hr
    | resolved status record =>
      obtain rfl : status = .SETTLED := Option.some.inj hr
      exact ⟨record, w', runs_calm (choiceOf scanRemote) (fun c => ⟨rfl, rfl, rfl, rfl, rfl⟩) _ hplay⟩

theorem scan_attributes_iff_single : ∃ line, scanned unknownTransaction [debitLine] = some line ∧
    scanRemote.lookup unknownWorld.provider unknownTransaction = some (ofStatementLine line) ∧
    (Attributed unknownWorld unknownTransaction [[debitLine]] line ↔
      ScanSound unknownWorld unknownTransaction [debitLine] []) := by
  obtain ⟨record, w', hrun⟩ := scan_resolves (by decide : (scanRun unknownWorld).bind _ = _)
  exact scan_attributes_iff [] hrun rfl rfl ⟨rfl, rfl⟩ rfl

/-- The operation is settled by the entry of another payment. -/
theorem linked_entry_settles :
    ¬ ∀ (remote : Remote) (w w' : World) (operation : OperationRecord) (t record : TransactionRecord)
      (status : TransactionStatus) (page : List StatementLine) (rest : List (List StatementLine)),
      w.operations.get operation.id = some operation → operation.status.isStuck = true →
      operationTransaction w operation = some t →
      remote.byKey w.provider = none ∧ remote.byReference w.provider t = none → remote.lines = .ok page →
      (resolve operation.id).Runs (calm remote.answers) w (.ok (.resolved status record)) w' →
      ∃ line, remote.lookup w.provider t = some (ofStatementLine line) ∧
        Attributed w t (page :: rest) line := by
  intro h
  obtain ⟨record, w', hrun⟩ := scan_resolves (by decide : (scanRun linkedWorld).bind _ = _)
  obtain ⟨line, -, hline⟩ := h scanRemote linkedWorld w' unknownTransfer unknownTransaction record .SETTLED
    [debitLine] [] rfl rfl rfl ⟨rfl, rfl⟩ rfl hrun
  have hnone : ([[debitLine]].flatten.filter fun l => decide (Moves unknownTransaction l) &&
      !linked linkedWorld unknownTransaction l) = [] := by decide
  rw [Attributed, hnone] at hline
  cases hline

end Sample

end BaasConnector.Pix.StatementScan
