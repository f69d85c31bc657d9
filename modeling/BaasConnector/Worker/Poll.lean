import BaasConnector.Webhooks.Apply
import BaasConnector.Connector.Database

namespace BaasConnector.Worker.Poll

open BaasConnector.Lib.Effects BaasConnector.Lib.Keyed BaasConnector.Taxonomy.Errors
open BaasConnector.Connector.Records BaasConnector.Connector.Calls BaasConnector.Connector.Database
open BaasConnector.Webhooks.Apply

inductive EntryDirection
  | credit | debit
deriving DecidableEq, Repr

/-- An entry of the provider's statement, as the poller reads it. -/
structure StatementEntry where
  providerEntryId : String
  postedAt : Int
  direction : EntryDirection
  amountCents : Int
  endToEndId : Option String
  providerTransactionId : Option String
deriving DecidableEq, Repr

structure StatementPage where
  data : List StatementEntry
  hasMore : Bool
  nextCursor : Option String
deriving DecidableEq, Repr

structure StatementQuery where
  providerAccountId : String
  fromDay : String
  toDay : String
  limit : Nat
  cursor : Option String
deriving DecidableEq, Repr

/-- How far the statement of an account has been read. Its unique key stands for its id. -/
structure PollCursor where
  connectionId : String
  stream : String
  scopeId : String
  watermark : Int
  lapSeconds : Int
deriving DecidableEq, Repr

def PollCursor.id (cursor : PollCursor) : String × String × String :=
  (cursor.connectionId, cursor.stream, cursor.scopeId)

/-- The calls of the poller, over those of the code that it shares with the webhooks. -/
inductive PollCall
  | base (q : Call)
  | cursorEnsure (cursor : PollCursor)
  | cursorAdvance (id : String × String × String) (watermark : Int)
  | cursorRecordFailure (id : String × String × String) (message : String)
  | eventClaim (connectionId dedupeKey : String) (payload : StatementEntry)
  | statementList (query : StatementQuery)

abbrev PollAnswer : PollCall → Type
  | .base q => Answer q
  | .cursorEnsure _ => PollCursor
  | .cursorAdvance .. => Unit
  | .cursorRecordFailure .. => Unit
  | .eventClaim .. => Bool
  | .statementList _ => StatementPage

abbrev PollFlow (α : Type) := Prog PollCall PollAnswer Thrown α

def lift {α : Type} : Flow α → PollFlow α
  | .pure a => .pure a
  | .throw e => .throw e
  | .call q k => .call (.base q) fun r => lift (k r)

def statementStream : String := "statement"

def maxWindowMs : Int := 24 * 3600000

def pageSize : Nat := 200

def maxPages : Nat := 20

def lapSeconds : Int := 300

/-- The year, month and day of a day counted from 1970-01-01. -/
def civil (day : Int) : Int × Int × Int :=
  let z := day + 719468
  let era := z / 146097
  let doe := z - era * 146097
  let yoe := (doe - doe / 1460 + doe / 36524 - doe / 146096) / 365
  let doy := doe - (365 * yoe + yoe / 4 - yoe / 100)
  let mp := (5 * doy + 2) / 153
  let month := if mp < 10 then mp + 3 else mp - 9
  (yoe + era * 400 + (if month ≤ 2 then 1 else 0), month, doy - (153 * mp + 2) / 5 + 1)

def padded (width n : Nat) : List Char :=
  let digits := (toString n).toList
  List.replicate (width - digits.length) '0' ++ digits

/-- `toISOString().slice(0, 10)`. -/
def utcDay (instant : Int) : String :=
  let (year, month, day) := civil (instant / 86400000)
  let sign := if year < 0 then ['-'] else if 9999 < year then ['+'] else []
  let years := padded (if sign = [] then 4 else 6) year.natAbs
  String.ofList
    ((sign ++ years ++ '-' :: padded 2 month.natAbs ++ '-' :: padded 2 day.natAbs).take 10)

example : utcDay 1773237600000 = "2026-03-11" := by decide

/-- The payment that an entry is about, under the provider's id for it. -/
def StatementEntry.reference (entry : StatementEntry) : String :=
  entry.providerTransactionId.getD entry.providerEntryId

def inboundData (entry : StatementEntry) (providerAccountId : String) : PaymentEventData :=
  { providerAccountId := some providerAccountId
    direction := some .incoming
    status := some .SETTLED
    amountCents := some entry.amountCents
    endToEndId := entry.endToEndId
    settledAt := some entry.postedAt }

/-- The draft leaves `transitionTo` out; its data carries the status. -/
def toInboundDraft (entry : StatementEntry) (providerAccountId : String) : CanonicalEventDraft :=
  { type := "PIX_IN_RECEIVED"
    providerId := entry.reference
    subject := .transaction .SETTLED (inboundData entry providerAccountId)
    occurredAt := some entry.postedAt }

def dedupeKey (entry : StatementEntry) : String := "poll:" ++ entry.providerEntryId

def applyEntry (bound : BoundProvider) (entry : StatementEntry)
    (providerAccountId connectionId : String) : PollFlow Bool :=
  if entry.direction ≠ .credit then return false
  else do
    let now ← lift (ask .now)
    let inserted ← Prog.perform (PollCall.eventClaim connectionId (dedupeKey entry) entry)
    if ¬ inserted then return false
    else
      let result ← lift (applyDrafts ⟨connectionId, bound.slug, now, none⟩
        [toInboundDraft entry providerAccountId])
      return decide (.applied ∈ result.outcomes)

def applyEntries (bound : BoundProvider) (providerAccountId connectionId : String) :
    List StatementEntry → PollFlow Nat
  | [] => return 0
  | entry :: entries => do
    let applied ← applyEntry bound entry providerAccountId connectionId
    let rest ← applyEntries bound providerAccountId connectionId entries
    return if applied then rest + 1 else rest

/-- The cursor of the page that follows, if the loop goes on. -/
def StatementPage.next (page : StatementPage) : Option String :=
  if page.hasMore then page.nextCursor.filter fun cursor => decide (cursor ≠ "") else none

/-- The loop over the pages, with the number of pages that are left. -/
def drain (bound : BoundProvider) (query : StatementQuery) (connectionId : String) :
    Nat → Option String → PollFlow Nat
  | 0, _ => return 0
  | pages + 1, cursor => do
    let page ← Prog.perform (PollCall.statementList { query with cursor })
    let applied ← applyEntries bound query.providerAccountId connectionId page.data
    match page.next with
    | none => return applied
    | some cursor =>
      let rest ← drain bound query connectionId pages (some cursor)
      return applied + rest

def queryOf (providerAccountId : String) (since upTo : Int) : StatementQuery :=
  ⟨providerAccountId, utcDay since, utcDay upTo, pageSize, none⟩

def drainAndAdvance (bound : BoundProvider) (providerAccountId connectionId : String)
    (cursor : PollCursor) (now : Int) : PollFlow Nat := do
  let since := cursor.watermark - cursor.lapSeconds * 1000
  let upTo := min now (since + maxWindowMs)
  let applied ← drain bound (queryOf providerAccountId since upTo) connectionId maxPages none
  Prog.perform (PollCall.cursorAdvance cursor.id upTo)
  return applied

def poll (connectionId accountId : String) : PollFlow Nat := do
  let bound ← lift (ask (.providerResolve connectionId))
  if ¬ bound.statement then return 0
  else
    match ← lift (ask (.accountFindById accountId)) with
    | none => return 0
    | some account =>
      match account.providerAccountId with
      | none => return 0
      | some providerAccountId =>
        let opened ← lift (ask .now)
        let cursor ← Prog.perform (PollCall.cursorEnsure
          ⟨connectionId, statementStream, accountId, opened - maxWindowMs, lapSeconds⟩)
        let now ← lift (ask .now)
        match ← (drainAndAdvance bound providerAccountId connectionId cursor now).attempt with
        | .ok applied => return applied
        | .error e =>
          Prog.perform (PollCall.cursorRecordFailure cursor.id (Thrown.message e))
          throw e

/-- The connector with what the poller stores of its own: the cursors, and the
events it has claimed, each with its payload under the connection and its key. -/
structure PollWorld where
  world : World
  cursors : Rows (String × String × String) PollCursor PollCursor.id
  claimed : Table (String × String) StatementEntry

/-- The provider's statements, page by page. -/
abbrev Statement := StatementQuery → StatementPage

/-- The choices of a reply, with what a call of the poller throws, if it does. -/
structure PollChoice where
  base : Choice := {}
  refused : Option Thrown := none

def PollWorld.claim (v : PollWorld) (key : String × String) (payload : StatementEntry) :
    Bool × PollWorld :=
  match v.claimed.get key with
  | some _ => (false, v)
  | none => (true, { v with claimed := v.claimed.set key payload })

def PollWorld.ensure (v : PollWorld) (cursor : PollCursor) : PollCursor × PollWorld :=
  match v.cursors.get cursor.id with
  | some stored => (stored, v)
  | none => (cursor, { v with cursors := v.cursors.put cursor })

def pollRespond (statement : Statement) (c : PollChoice) :
    (q : PollCall) → PollWorld → Option (Except Thrown (PollAnswer q) × PollWorld)
  | .base q, v => (answer c.base q v.world).map fun b => (b.1, { v with world := b.2 })
  | .cursorEnsure cursor, v => some (.ok (v.ensure cursor).1, (v.ensure cursor).2)
  | .cursorAdvance id watermark, v =>
    match v.cursors.get id with
    | none => some (.error recordNotFound, v)
    | some cursor => some (.ok (), { v with cursors := v.cursors.put { cursor with watermark } })
  | .cursorRecordFailure id _, v =>
    match v.cursors.get id with
    | none => some (.error recordNotFound, v)
    | some _ => some (.ok (), v)
  | .eventClaim connectionId key payload, v =>
    some (.ok (v.claim (connectionId, key) payload).1, (v.claim (connectionId, key) payload).2)
  | .statementList query, v => some (.ok (statement query), v)

def pollAnswer (statement : Statement) (c : PollChoice) (q : PollCall) (v : PollWorld) :
    Option (Except Thrown (PollAnswer q) × PollWorld) :=
  match q, c.refused with
  | .base q, _ => pollRespond statement c (.base q) v
  | _, some e => some (.error e, v)
  | q, none => pollRespond statement c q v

def pollEnv (statement : Statement) : Prog.Env PollCall PollAnswer Thrown PollWorld :=
  fun v q r v' => ∃ c, pollAnswer statement c q v = some (r, v')

variable {statement : Statement} {v v' : PollWorld}

theorem pollEnv_base {q : Call} {r : Except Thrown (Answer q)}
    (h : pollEnv statement v (.base q) r v') :
    env v.world q r v'.world ∧ v' = { v with world := v'.world } := by
  obtain ⟨c, hc⟩ := h
  simp only [pollAnswer, pollRespond, Option.map_eq_some_iff, Prod.mk.injEq] at hc
  obtain ⟨b, hb, hr, hv⟩ := hc
  rw [← hr, ← hv]
  exact ⟨⟨c.base, hb⟩, rfl⟩

theorem pollEnv_list {query : StatementQuery} {r : Except Thrown StatementPage}
    (h : pollEnv statement v (.statementList query) r v') :
    v' = v ∧ ∀ page, r = .ok page → page = statement query := by
  obtain ⟨c, hc⟩ := h
  unfold pollAnswer at hc
  cases hf : c.refused with
  | some e =>
    simp only [hf, Option.some.injEq, Prod.mk.injEq] at hc
    exact ⟨hc.2.symm, fun page hp => by rw [← hc.1] at hp; cases hp⟩
  | none =>
    simp only [hf, pollRespond, Option.some.injEq, Prod.mk.injEq] at hc
    exact ⟨hc.2.symm, fun page hp => by rw [← hc.1] at hp; exact (Except.ok.inj hp).symm⟩

theorem pollEnv_claim {connectionId key : String} {payload : StatementEntry} {r : Except Thrown Bool}
    (h : pollEnv statement v (.eventClaim connectionId key payload) r v') :
    ((∃ e, r = .error e) ∧ v' = v) ∨
      (r = .ok false ∧ v' = v ∧ ∃ stored, v.claimed.get (connectionId, key) = some stored) ∨
      (r = .ok true ∧ v.claimed.get (connectionId, key) = none ∧
        v' = { v with claimed := v.claimed.set (connectionId, key) payload }) := by
  obtain ⟨c, hc⟩ := h
  unfold pollAnswer at hc
  cases hf : c.refused with
  | some e =>
    simp only [hf, Option.some.injEq, Prod.mk.injEq] at hc
    exact .inl ⟨⟨e, hc.1.symm⟩, hc.2.symm⟩
  | none =>
    simp only [hf, pollRespond, PollWorld.claim, Option.some.injEq, Prod.mk.injEq] at hc
    cases hg : v.claimed.get (connectionId, key) with
    | some stored =>
      rw [hg] at hc
      exact .inr (.inl ⟨hc.1.symm, hc.2.symm, stored, rfl⟩)
    | none =>
      rw [hg] at hc
      exact .inr (.inr ⟨hc.1.symm, rfl, hc.2.symm⟩)

/-- The calls about cursors leave the connector and the claims alone. -/
theorem pollEnv_cursor {q : PollCall} {r : Except Thrown (PollAnswer q)}
    (hq : (∃ cursor, q = .cursorEnsure cursor) ∨ (∃ id watermark, q = .cursorAdvance id watermark) ∨
      ∃ id message, q = .cursorRecordFailure id message)
    (h : pollEnv statement v q r v') : v'.world = v.world ∧ v'.claimed = v.claimed := by
  obtain ⟨c, hc⟩ := h
  unfold pollAnswer at hc
  obtain ⟨cursor, rfl⟩ | ⟨id, watermark, rfl⟩ | ⟨id, message, rfl⟩ := hq <;>
    cases hf : c.refused <;>
    simp only [hf, pollRespond, PollWorld.ensure, Option.some.injEq, Prod.mk.injEq] at hc <;>
    grind

end BaasConnector.Worker.Poll
