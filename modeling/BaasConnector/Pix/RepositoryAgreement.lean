import BaasConnector.Pix.TransactionRepositories

namespace BaasConnector.Pix.RepositoryAgreement

open BaasConnector.Lib.Keyed BaasConnector.Lib.Mirrored BaasConnector.Taxonomy.Status
open BaasConnector.Connector.Columns
open BaasConnector.Connector.Records (guardStatus guardStatus_none)
open BaasConnector.Pix.TransactionRows BaasConnector.Pix.TransactionRepositories

open Prisma (Database)
open InMemory (Memory)

variable {calendar : Calendar}

/-- Along a run both repositories give the same reply to every operation, and
after every operation every transaction reads the same in both. -/
def Agree (calendar : Calendar) : Database → Memory → List (Int × Operation) → Prop
  | _, _, [] => True
  | d, m, (now, op) :: ops =>
    (d.step calendar now op).1 = (m.step now op).1 ∧
      (∀ environment id, (d.step calendar now op).2.findById calendar environment id =
        (m.step now op).2.findById environment id) ∧
      Agree calendar (d.step calendar now op).2 (m.step now op).2 ops

/-- The row a status change applies to. -/
def Target (d : Database) (c : StatusChange) (row : TransactionRow) : Prop :=
  d.transactions.get c.transactionId = some row ∧ row.environment = c.environment ∧
    guardStatus transactionTransitions transactionRanks row.status c.toStatus c.occurredAt
      row.lastEventAt = none

/-- What an operation must satisfy, given the database before it. -/
def Accepted (calendar : Calendar) (d : Database) (now : Int) : Operation → Prop
  | .create r => (d.inserted calendar now r).isSome ∧ Preserved calendar now r
  | .applyStatusChange c => ∀ row, Target d c row →
    (d.updated now c row).isSome ∧ c.texts.all fits ∧ c.occurredAt = now
  | .attachProviderTransaction a => ∀ row, d.transactions.get a.transactionId = some row →
    (d.joined now a row).isSome ∧ a.texts.all fits
  | .findByProviderTransactionId _ provider _ => provider ∈ providerSlugs
  | .findById _ _ | .findByEndToEndId _ _ | .findByIdempotencyKey _ _ => True

def AllAccepted (calendar : Calendar) : Database → List (Int × Operation) → Prop
  | _, [] => True
  | d, (now, op) :: ops =>
    Accepted calendar d now op ∧ AllAccepted calendar (d.step calendar now op).2 ops

abbrev Same (calendar : Calendar) (d : Database) (m : Memory) : Prop :=
  Mirrors (toTransaction calendar) d.transactions m.rows

theorem Same.findById {d : Database} {m : Memory} (h : Same calendar d m) (environment : Environment)
    (id : String) : d.findById calendar environment id = m.findById environment id := by
  rw [Database.findById, Database.findFirst, search_key d.transactions id, Memory.findById, h.get]
  cases d.transactions.get id with
  | none => rfl
  | some row =>
    by_cases he : row.environment = environment
    · simp [Option.filter, he, toTransaction]
    · simp [Option.filter, he, toTransaction]

theorem or_eq_iff {width : Nat} {text old : Option String} :
    (nullable width text).or old = text.or old ↔ fits (width, text) := by
  rw [← nullable_eq_iff]
  cases text with
  | none => simp [nullable]
  | some s => simp [nullable]

theorem changed_iff {pix : Option PixDetailRow} {g : Option String}
    {f : String → PixDetailRow → PixDetailRow} {f' : String → PixDetailRecord → PixDetailRecord}
    (hf : ∀ e p, (f e p).toDetail = f' e p.toDetail) (he : ∀ e p, (f' e p).endToEndId = some e)
    (hp : g.isSome → pix.isSome) :
    (changed f (nullable 32 g) pix).map PixDetailRow.toDetail =
      changed f' g (pix.map PixDetailRow.toDetail) ↔ fits (32, g) := by
  rw [← nullable_eq_iff]
  cases g with
  | none => simp [nullable, changed]
  | some e =>
    obtain ⟨p, rfl⟩ := Option.isSome_iff_exists.mp (hp rfl)
    simp only [nullable, changed, Option.map_some, Option.elim, Option.some.injEq, hf]
    constructor
    · intro h
      have hid := congrArg PixDetailRecord.endToEndId h
      rw [he, he] at hid
      exact Option.some.inj hid
    · intro h
      rw [h]

theorem applied_iff {now : Int} {c : StatusChange} {row : TransactionRow}
    (hp : (given c.endToEndId).isSome → row.pix.isSome) :
    toTransaction calendar (Prisma.applied now c row) = InMemory.applied c (toTransaction calendar row) ↔
      c.texts.all fits ∧ c.occurredAt = now := by
  have hpix := @changed_iff row.pix _ (Prisma.settle c.settledAt) (InMemory.settle c.settledAt)
    (fun _ _ => rfl) (fun _ _ => rfl) hp
  simp only [toTransaction, Prisma.applied, InMemory.applied, TransactionRecord.mk.injEq, or_eq_iff,
    hpix, StatusChange.texts, List.all_cons, List.all_nil, Bool.and_eq_true, and_true, true_and]
  grind

theorem attached_iff {now : Int} {a : Attachment} {row : TransactionRow}
    (hp : (given a.endToEndId).isSome → row.pix.isSome) :
    toTransaction calendar (Prisma.attached now a row) =
      InMemory.attached now a (toTransaction calendar row) ↔ a.texts.all fits := by
  have hpix := @changed_iff row.pix _ Prisma.identify InMemory.identify (fun _ _ => rfl)
    (fun _ _ => rfl) hp
  simp only [toTransaction, Prisma.attached, InMemory.attached, TransactionRecord.mk.injEq,
    Option.some.injEq, varchar_eq_iff, hpix, Attachment.texts, List.all_cons, List.all_nil,
    Bool.and_eq_true, fits_some, and_true, true_and]

theorem inserted_some {d : Database} {now : Int} {r : TransactionRecord} {row : TransactionRow}
    (h : d.inserted calendar now r = some row) :
    toTransaction calendar row = r ↔ Preserved calendar now r := by
  obtain ⟨day, hd, hrow⟩ := Option.bind_eq_some_iff.mp h
  dsimp only at hrow
  split at hrow
  · cases hrow
  · rw [← Option.some.inj hrow]
    exact toTransaction_toRow_iff calendar hd

theorem updated_some {d : Database} {now : Int} {c : StatusChange} {row row' : TransactionRow}
    (h : d.updated now c row = some row') :
    row' = Prisma.applied now c row ∧ c.withinTransactionThrows = false ∧
      ((given c.endToEndId).isSome → row.pix.isSome) := by
  dsimp only [Database.updated] at h
  split at h
  · cases h
  · rename_i hc
    simp only [Bool.or_eq_true, not_or, Bool.and_eq_true, not_and, Option.isNone_iff_eq_none] at hc
    exact ⟨(Option.some.inj h).symm, by simpa using hc.2,
      fun hg => Option.isSome_iff_ne_none.mpr (hc.1.1.2 hg)⟩

theorem joined_some {d : Database} {now : Int} {a : Attachment} {row row' : TransactionRow}
    (h : d.joined now a row = some row') :
    row' = Prisma.attached now a row ∧ ((given a.endToEndId).isSome → row.pix.isSome) := by
  dsimp only [Database.joined] at h
  split at h
  · cases h
  · rename_i hc
    simp only [Bool.or_eq_true, not_or, Bool.and_eq_true, not_and, Option.isNone_iff_eq_none] at hc
    exact ⟨(Option.some.inj h).symm, fun hg => Option.isSome_iff_ne_none.mpr (hc.1.2 hg)⟩

theorem create_accepted_iff {d : Database} {now : Int} {r : TransactionRecord} {m : Memory} :
    (d.create calendar now r).1 = (m.create r).1 ↔ Accepted calendar d now (.create r) := by
  rw [Database.create, Memory.create, Accepted]
  cases hi : d.inserted calendar now r with
  | none => simp [Database.write]
  | some row => simp [Database.write, inserted_some hi]

/-- What a write stores is mirrored by the record it reads as. -/
theorem Same.write {d : Database} {m : Memory} (h : Same calendar d m) {row : TransactionRow}
    (reply : TransactionRecord → Reply) {t : TransactionRecord} (ht : toTransaction calendar row = t) :
    Same calendar (d.write calendar reply (some row)).2 ⟨m.rows.put t⟩ := by
  subst ht
  exact h.put rfl rfl

theorem create_same {d : Database} {now : Int} {r : TransactionRecord} {m : Memory}
    (h : Same calendar d m) (ha : Accepted calendar d now (.create r)) :
    Same calendar (d.create calendar now r).2 (m.create r).2 := by
  obtain ⟨row, hi⟩ := Option.isSome_iff_exists.mp ha.1
  rw [Database.create, hi]
  exact h.write _ ((inserted_some hi).mpr ha.2)

theorem apply_target {d : Database} {m : Memory} (h : Same calendar d m) (now : Int)
    {c : StatusChange} {row : TransactionRow} (ht : Target d c row) :
    d.applyStatusChange calendar now c =
        d.write calendar (fun t => .change (.applied t)) (d.updated now c row) ∧
      m.applyStatusChange c =
        (if c.withinTransactionThrows then .thrown
          else .change (.applied (InMemory.applied c (toTransaction calendar row))),
          ⟨m.rows.put (InMemory.applied c (toTransaction calendar row))⟩) := by
  obtain ⟨hrow, henv, hguard⟩ := ht
  constructor
  · rw [Database.applyStatusChange, search_key d.transactions c.transactionId, hrow]
    simp [Option.filter, henv, hguard]
  · rw [Memory.applyStatusChange, h.get, hrow]
    simp [Option.filter, henv, toTransaction, hguard]

theorem apply_discarded {d : Database} {m : Memory} (h : Same calendar d m) (now : Int)
    {c : StatusChange} (ht : ∀ row, ¬ Target d c row) :
    (d.applyStatusChange calendar now c).1 = (m.applyStatusChange c).1 ∧
      (d.applyStatusChange calendar now c).2 = d ∧ (m.applyStatusChange c).2 = m := by
  rw [Database.applyStatusChange, search_key d.transactions c.transactionId, Memory.applyStatusChange, h.get]
  cases hrow : d.transactions.get c.transactionId with
  | none => exact ⟨rfl, rfl, rfl⟩
  | some row =>
    by_cases henv : row.environment = c.environment
    · cases hguard : guardStatus transactionTransitions transactionRanks row.status c.toStatus
        c.occurredAt row.lastEventAt with
      | none => exact absurd ⟨hrow, henv, hguard⟩ (ht row)
      | some reason => simp [Option.filter, henv, toTransaction, hguard]
    · simp [Option.filter, henv, toTransaction]

theorem Target.unique {d : Database} {c : StatusChange} {row row' : TransactionRow}
    (h : Target d c row) (h' : Target d c row') : row' = row :=
  Option.some.inj (h'.1.symm.trans h.1)

theorem Target.status_ne {d : Database} {c : StatusChange} {row : TransactionRow}
    (h : Target d c row) : row.status ≠ c.toStatus := by
  have hr := (guardStatus_none.mp h.2.2).2.1
  intro he
  rw [he] at hr
  exact lt_irrefl _ hr

/-- When the callback throws, the memory keeps a status that the database
rolls back. -/
theorem rolled_back {d : Database} {m : Memory} {c : StatusChange} {row : TransactionRow}
    (h : Target d c row) :
    d.findById calendar c.environment c.transactionId ≠
      (Memory.mk (m.rows.put (InMemory.applied c (toTransaction calendar row)))).findById
        c.environment c.transactionId := by
  obtain ⟨hrow, henv, _⟩ := id h
  have hid : (InMemory.applied c (toTransaction calendar row)).id = c.transactionId :=
    @Rows.key_of_get _ _ _ _ d.transactions _ _ hrow
  have hget : (m.rows.put (InMemory.applied c (toTransaction calendar row))).get c.transactionId =
      some (InMemory.applied c (toTransaction calendar row)) := by
    rw [← hid]
    exact Rows.get_put_self _ _
  rw [Database.findById, Database.findFirst, search_key d.transactions c.transactionId,
    Memory.findById, hget, hrow]
  intro he
  have hs : row.status = c.toStatus := by
    simpa [Option.filter, henv, InMemory.applied, toTransaction] using
      congrArg (Option.map TransactionRecord.status) he
  exact h.status_ne hs

theorem apply_same {d : Database} {m : Memory} (h : Same calendar d m) {now : Int} {c : StatusChange}
    (ha : Accepted calendar d now (.applyStatusChange c)) :
    (d.applyStatusChange calendar now c).1 = (m.applyStatusChange c).1 ∧
      Same calendar (d.applyStatusChange calendar now c).2 (m.applyStatusChange c).2 := by
  by_cases ht : ∃ row, Target d c row
  · obtain ⟨row, ht⟩ := ht
    obtain ⟨hd, hm⟩ := apply_target h now ht
    obtain ⟨hu, htexts⟩ := ha row ht
    obtain ⟨row', hrow'⟩ := Option.isSome_iff_exists.mp hu
    obtain ⟨he, hthrows, hpix⟩ := updated_some hrow'
    have hread : toTransaction calendar row' = InMemory.applied c (toTransaction calendar row) := by
      rw [he]
      exact (applied_iff hpix).mpr htexts
    rw [hd, hm, hrow', hthrows]
    exact ⟨by rw [Database.write, hread]; rfl, h.write _ hread⟩
  · obtain ⟨hreply, hd, hm⟩ := apply_discarded h now (not_exists.mp ht)
    rw [hd, hm]
    exact ⟨hreply, h⟩

theorem apply_accepted {d : Database} {m : Memory} (h : Same calendar d m) {now : Int}
    {c : StatusChange}
    (hreply : (d.applyStatusChange calendar now c).1 = (m.applyStatusChange c).1)
    (hread : ∀ environment id,
      (d.applyStatusChange calendar now c).2.findById calendar environment id =
        (m.applyStatusChange c).2.findById environment id) :
    Accepted calendar d now (.applyStatusChange c) := by
  intro row ht
  obtain ⟨hd, hm⟩ := apply_target h now ht
  rw [hd, hm] at hreply hread
  cases hu : d.updated now c row with
  | none =>
    rw [hu] at hread
    exact absurd (hread c.environment c.transactionId) (rolled_back ht)
  | some row' =>
    obtain ⟨he, hthrows, hpix⟩ := updated_some hu
    rw [hu, hthrows, he] at hreply
    have hr : toTransaction calendar (Prisma.applied now c row) =
        InMemory.applied c (toTransaction calendar row) := by
      simpa [Database.write] using hreply
    exact ⟨rfl, (applied_iff hpix).mp hr⟩

theorem attach_same {d : Database} {m : Memory} (h : Same calendar d m) {now : Int} {a : Attachment}
    (ha : Accepted calendar d now (.attachProviderTransaction a)) :
    (d.attachProviderTransaction calendar now a).1 = (m.attachProviderTransaction now a).1 ∧
      Same calendar (d.attachProviderTransaction calendar now a).2
        (m.attachProviderTransaction now a).2 := by
  rw [Database.attachProviderTransaction, Memory.attachProviderTransaction, h.get]
  cases hrow : d.transactions.get a.transactionId with
  | none => exact ⟨rfl, h⟩
  | some row =>
    obtain ⟨hj, htexts⟩ := ha row hrow
    obtain ⟨row', hrow'⟩ := Option.isSome_iff_exists.mp hj
    obtain ⟨he, hpix⟩ := joined_some hrow'
    have hread : toTransaction calendar row' = InMemory.attached now a (toTransaction calendar row) := by
      rw [he]
      exact (attached_iff hpix).mpr htexts
    rw [Option.bind_some, hrow']
    exact ⟨by rw [Database.write, hread]; rfl, h.write _ hread⟩

theorem attach_accepted {d : Database} {m : Memory} (h : Same calendar d m) {now : Int}
    {a : Attachment}
    (hreply : (d.attachProviderTransaction calendar now a).1 =
      (m.attachProviderTransaction now a).1) :
    Accepted calendar d now (.attachProviderTransaction a) := by
  intro row hrow
  rw [Database.attachProviderTransaction, Memory.attachProviderTransaction, h.get, hrow,
    Option.bind_some] at hreply
  cases hj : d.joined now a row with
  | none =>
    rw [hj] at hreply
    cases hreply
  | some row' =>
    obtain ⟨he, hpix⟩ := joined_some hj
    rw [hj, he] at hreply
    have hr : toTransaction calendar (Prisma.attached now a row) =
        InMemory.attached now a (toTransaction calendar row) := by
      simpa [Database.write] using hreply
    exact ⟨rfl, (attached_iff hpix).mp hr⟩

theorem search_same {d : Database} {m : Memory} (h : Same calendar d m) {p : TransactionRow → Bool}
    {q : TransactionRecord → Bool} (hpq : ∀ row, q (toTransaction calendar row) = p row) :
    d.findFirst calendar p = m.rows.search q := (h.search hpq).symm

theorem step_same {d : Database} {m : Memory} (h : Same calendar d m) {now : Int} {op : Operation}
    (ha : Accepted calendar d now op) :
    (d.step calendar now op).1 = (m.step now op).1 ∧
      Same calendar (d.step calendar now op).2 (m.step now op).2 := by
  cases op with
  | create r => exact ⟨create_accepted_iff.mpr ha, create_same h ha⟩
  | applyStatusChange c => exact apply_same h ha
  | attachProviderTransaction a => exact attach_same h ha
  | findById environment id => exact ⟨congrArg Reply.record (h.findById environment id), h⟩
  | findByProviderTransactionId environment provider providerTransactionId =>
    have hslug : providerSlugs.contains provider = true := List.contains_iff_mem.mpr ha
    rw [Database.step, if_pos hslug]
    exact ⟨congrArg Reply.record (search_same h fun _ => rfl), h⟩
  | findByEndToEndId environment endToEndId =>
    refine ⟨congrArg Reply.record (search_same h fun row => ?_), h⟩
    cases hp : row.pix with
    | none => simp [toTransaction, hp]
    | some p => simp [toTransaction, hp, PixDetailRow.toDetail]
  | findByIdempotencyKey environment idempotencyKey =>
    exact ⟨congrArg Reply.record (search_same h fun _ => rfl), h⟩

theorem step_accepted {d : Database} {m : Memory} (h : Same calendar d m) {now : Int} {op : Operation}
    (hreply : (d.step calendar now op).1 = (m.step now op).1)
    (hread : ∀ environment id, (d.step calendar now op).2.findById calendar environment id =
      (m.step now op).2.findById environment id) : Accepted calendar d now op := by
  cases op with
  | create r => exact create_accepted_iff.mp hreply
  | applyStatusChange c => exact apply_accepted h hreply hread
  | attachProviderTransaction a => exact attach_accepted h hreply
  | findById environment id => trivial
  | findByProviderTransactionId environment provider providerTransactionId =>
    by_contra hslug
    rw [Database.step, if_neg (fun hc => hslug (List.contains_iff_mem.mp hc))] at hreply
    cases hreply
  | findByEndToEndId environment endToEndId => trivial
  | findByIdempotencyKey environment idempotencyKey => trivial

theorem agree_iff {d : Database} {m : Memory} (h : Same calendar d m) (ops : List (Int × Operation)) :
    Agree calendar d m ops ↔ AllAccepted calendar d ops := by
  induction ops generalizing d m with
  | nil => exact Iff.rfl
  | cons o ops ih =>
    constructor
    · intro hagree
      have ha := step_accepted h hagree.1 hagree.2.1
      exact ⟨ha, (ih (step_same h ha).2).mp hagree.2.2⟩
    · intro hall
      obtain ⟨hreply, hsame⟩ := step_same h hall.1
      exact ⟨hreply, hsame.findById, (ih hsame).mpr hall.2⟩

theorem findById_put (d : Database) (row : TransactionRow) (environment : Environment) :
    Database.findById calendar { d with transactions := d.transactions.put row } environment row.id =
      (some (toTransaction calendar row)).filter fun t => t.environment = environment := by
  have hg := Rows.get_put_self d.transactions row
  rw [Database.findById, Database.findFirst, search_key (d.transactions.put row) row.id, hg]
  by_cases he : row.environment = environment
  · simp [Option.filter, he, toTransaction]
  · simp [Option.filter, he, toTransaction]

theorem create_read_iff {d : Database} {now : Int} {r : TransactionRecord} :
    (d.create calendar now r).1 = .record (some r) ∧
        (d.create calendar now r).2.findById calendar r.environment r.id = some r ↔
      Accepted calendar d now (.create r) := by
  have hreply := @create_accepted_iff calendar d now r ⟨.empty⟩
  constructor
  · intro h
    exact hreply.mp h.1
  · intro ha
    obtain ⟨row, hi⟩ := Option.isSome_iff_exists.mp ha.1
    have hr := (inserted_some hi).mpr ha.2
    have hid : row.id = r.id := congrArg TransactionRecord.id hr
    have hread := @findById_put calendar d row r.environment
    rw [hr, hid] at hread
    refine ⟨hreply.mpr ha, ?_⟩
    rw [Database.create, hi, Database.write, hread]
    simp [Option.filter]

/-- A payment that settles at once is stored without its settlement, and what the
provider named is kept in the returned copy only. -/
theorem recordSent_forgets {d d' : Database} {now : Int} {draft t : TransactionRecord} {sent : SentPix}
    (h : d.recordSent calendar now draft sent = (some t, d')) :
    ∃ stored, d'.findById calendar draft.environment t.id = some stored ∧ t = sent.fill stored ∧
      stored.settledAt = none ∧
      stored.pix.map (·.endToEndId) = draft.pix.map (fun p => nullable 32 p.endToEndId) := by
  rw [Database.recordSent, Database.create] at h
  cases hi : d.inserted calendar now (sent.record draft) with
  | none =>
    rw [hi] at h
    cases h
  | some row =>
    rw [hi, Database.write, Prod.mk.injEq] at h
    obtain ⟨ht, rfl⟩ := h
    obtain ⟨day, _, hrow⟩ := Option.bind_eq_some_iff.mp hi
    dsimp only at hrow
    split at hrow
    · cases hrow
    · have hrow := Option.some.inj hrow
      have hread := @findById_put calendar d row draft.environment
      have henv : (toTransaction calendar row).environment = draft.environment := by
        rw [← hrow]
        rfl
      refine ⟨toTransaction calendar row, ?_, (Option.some.inj ht).symm, by rw [← hrow]; rfl, ?_⟩
      · rw [← Option.some.inj ht]
        refine hread.trans ?_
        simp [Option.filter, henv]
      · rw [← hrow]
        cases hp : draft.pix with
        | none => simp [toTransaction, TransactionRecord.toRow, SentPix.record, hp]
        | some p =>
          simp [toTransaction, TransactionRecord.toRow, SentPix.record, hp, PixDetailRow.toDetail,
            PixDetailRecord.toRow]

theorem recordSent_kept (m : Memory) (draft : TransactionRecord) (sent : SentPix) :
    (m.recordSent draft sent).2.findById draft.environment draft.id = (m.recordSent draft sent).1 := by
  have hg := Rows.get_put_self (m.rows.put (sent.record draft)) (sent.fill (sent.record draft))
  have hid : (sent.fill (sent.record draft)).id = draft.id := rfl
  rw [hid] at hg
  rw [Memory.recordSent, Memory.create, Memory.findById, hg]
  simp [Option.filter, SentPix.fill, SentPix.record]

/-- From empty stores both repositories agree along a run exactly when every
operation of it is accepted, and a created record reads back as it was given
exactly when its creation is. -/
theorem repositories_agree_iff (calendar : Calendar) (accounts charges : List String) :
    (∀ ops, Agree calendar ⟨accounts, charges, .empty⟩ ⟨.empty⟩ ops ↔
      AllAccepted calendar ⟨accounts, charges, .empty⟩ ops) ∧
    (∀ (d : Database) (now : Int) (r : TransactionRecord),
      (d.create calendar now r).1 = .record (some r) ∧
          (d.create calendar now r).2.findById calendar r.environment r.id = some r ↔
        (d.inserted calendar now r).isSome ∧ Preserved calendar now r) :=
  ⟨fun ops => agree_iff Mirrors.empty ops, fun _ _ _ => create_read_iff⟩

def sampleCalendar : Calendar where
  parse text := if text = "2026-08-28T00:00:00.000Z" then some 1787875200000 else none
  toISOString _ := "2026-08-28T00:00:00.000Z"

def sampleDraft : TransactionRecord where
  id := "txn_1"
  environment := .HOMOLOGACAO
  accountId := "acc_1"
  chargeId := none
  parentTransactionId := none
  type := .PIX_OUT
  direction := .DEBIT
  status := .SETTLED
  lastEventAt := some 1787918400000
  amountCents := 1500
  feeCents := 0
  netAmountCents := 1500
  refundedAmountCents := 0
  currency := "BRL"
  description := none
  provider := "MOCK_BANK"
  providerConnectionId := "con_1"
  providerTransactionId := none
  externalId := none
  idempotencyKey := some "opr_1"
  operationId := some "opr_1"
  failureCode := none
  providerFailureCode := none
  failureMessage := none
  effectiveDate := "2026-08-28"
  requestedAt := 1787918400000
  settledAt := none
  failedAt := none
  ledgerPendingTransactionId := some "ltx_1"
  ledgerPostedTransactionId := none
  pix := some
    { endToEndId := none
      returnId := none
      originalEndToEndId := none
      txid := none
      initiationMethod := .KEY
      purpose := .TRANSFER
      keyType := some .EMAIL
      keyValue := some "ana@example.com"
      counterparty := some ⟨none, none, none, none, none, none⟩
      remittanceInfo := none
      settlementAt := none }
  metadata := []
  createdAt := 1787918400000
  updatedAt := 1787918400000

def sampleSent : SentPix := ⟨"mbk_1", none, none, some 1787918399000⟩

def settlementOf : Reply → Option (Option Int)
  | .record found => found.map (·.settledAt)
  | _ => none

example : Accepted sampleCalendar ⟨["acc_1"], [], .empty⟩ 1787918400000 (.create sampleDraft) :=
  ⟨by decide, (preserved_iff _ _ _).mpr (by decide)⟩

/-- A payment the provider settled in its answer. -/
theorem settlement_dropped :
    settlementOf (Database.create sampleCalendar ⟨["acc_1"], [], .empty⟩ 1787918400000
        (sampleSent.record sampleDraft)).1 = some none ∧
      ¬ ∀ ops, Agree sampleCalendar ⟨["acc_1"], [], .empty⟩ ⟨.empty⟩ ops := by
  refine ⟨by decide, fun h => ?_⟩
  have hreply := (h [(1787918400000, .create (sampleSent.record sampleDraft))]).1
  have hs := congrArg settlementOf hreply
  revert hs
  decide

end BaasConnector.Pix.RepositoryAgreement
