import BaasConnector.MockBank.StatementRuns

namespace BaasConnector.MockBank.Requests

open BaasConnector.Lib.Keyed BaasConnector.Ledger.Types BaasConnector.Ledger.Engine
open BaasConnector.Ledger.Reachable
open BaasConnector.Ledger.MemoryStore BaasConnector.Ledger.Shadow BaasConnector.MockBank.Ledger
open BaasConnector.MockBank.Payments BaasConnector.MockBank.Statements
open BaasConnector.MockBank.StatementRuns

/-- A request that has passed its checks, with what it goes on with. -/
inductive Request
  | send (mint : PaymentMint) (account : MockAccount) (input : SendPixInput)
  | refund (mint : PaymentMint) (original : MockPayment) (account : MockAccount) (input : RefundPixInput)
deriving DecidableEq, Repr

namespace Request

def id : Request → String
  | .send mint .. | .refund mint .. => mint.id

def idempotencyKey : Request → Option String
  | .send _ _ input => input.idempotencyKey
  | .refund _ _ _ input => input.idempotencyKey

def call (config : MockBankConfig) : Request → LedgerCall
  | .send mint account input => .authorizePixOut (authorizeOptions config mint account input)
  | .refund mint original account input => .postRefund (refundOptions mint original account input)

/-- The key under which the ledger is asked. -/
def ledgerKey : Request → String
  | .send mint .. => "pixout-auth-" ++ mint.id
  | .refund mint .. => "refund-" ++ mint.id

end Request

/-- A request between its checks and its record, and the transaction that the ledger
has answered with, if it has. -/
structure Underway where
  request : Request
  answered : Option String
deriving DecidableEq, Repr

structure Traffic where
  bank : BankState
  underway : Table String Underway

/-- The caller gets an answer, or waits. -/
inductive Reply
  | answered (answer : Except Thrown Answer)
  | waits

/-- A payment is asked for: up to where the ledger is waited for. -/
def sendComes (config : MockBankConfig) (nightly : Bool) (mint : PaymentMint) (traffic : Traffic)
    (input : SendPixInput) : Reply × Traffic :=
  match existingId traffic.bank.store input.idempotencyKey with
  | some id => (.answered (.ok (.payment (traffic.bank.store.payments.get id))), traffic)
  | none =>
    match assertCanSend config nightly traffic.bank input with
    | .error e => (.answered (.error e), traffic)
    | .ok account =>
      (.waits, { traffic with underway := traffic.underway.set mint.id ⟨.send mint account input, none⟩ })

def refundComes (now : Int) (mint : PaymentMint) (traffic : Traffic) (input : RefundPixInput) :
    Reply × Traffic :=
  match existingId traffic.bank.store input.idempotencyKey with
  | some id => (.answered (.ok (.payment (traffic.bank.store.payments.get id))), traffic)
  | none =>
    match assertCanRefund traffic.bank.store now input with
    | .error e => (.answered (.error e), traffic)
    | .ok (original, account) =>
      (.waits, { traffic with
        underway := traffic.underway.set mint.id ⟨.refund mint original account input, none⟩ })

/-- The ledger takes up what a request waits for. -/
def moves (config : MockBankConfig) (ledgerMint : Mint) (traffic : Traffic) (id : String) :
    Reply × Traffic :=
  match traffic.underway.get id with
  | some ⟨request, none⟩ =>
    match Ledger.run traffic.bank.ledger ledgerMint (request.call config) with
    | (.error e, ledger) =>
      (.answered (.error e), ⟨{ traffic.bank with ledger }, traffic.underway.delete id⟩)
    | (.ok posted, ledger) =>
      (.waits, ⟨{ traffic.bank with ledger },
        traffic.underway.set id ⟨request, some posted.transaction.id⟩⟩)
  | _ => (.waits, traffic)

/-- What a refund gives back is taken off what the original stands at by then. -/
def withGivenBack (store : MockBankStore) (originalId : String) (amountCents : Int) : MockBankStore :=
  match store.payments.get originalId with
  | some original => { store with payments := store.payments.put (givenBack original amountCents) }
  | none => store

/-- What the request does with the answer of the ledger. -/
def recorded (config : MockBankConfig) (bank : BankState) (transactionId : String) :
    Request → Answer × BankState
  | .send mint account input =>
    let payment := outgoingPayment config mint account input transactionId
    let store := persist bank.store payment
    if pixOutScenarioFor input.amountCents = .TIMEOUT then (.hang, { bank with store })
    else (.payment (some payment), { bank with store, settling := bank.settling.set payment.id payment })
  | .refund mint original account input =>
    let payment := refundPayment mint original account input transactionId
    let store := withGivenBack bank.store original.id (refundAmount original input)
    (.payment (some payment), { bank with store := persist store payment })

def records (config : MockBankConfig) (traffic : Traffic) (id : String) : Reply × Traffic :=
  match traffic.underway.get id with
  | some ⟨request, some transactionId⟩ =>
    let (answer, bank) := recorded config traffic.bank transactionId request
    (.answered (.ok answer), ⟨bank, traffic.underway.delete id⟩)
  | _ => (.waits, traffic)

/-- What happens between two waits: a request comes, the ledger takes one up, one is
recorded, or the bank does something else. -/
inductive Event
  | send (nightly : Bool) (mint : PaymentMint) (input : SendPixInput)
  | refund (now : Int) (mint : PaymentMint) (input : RefundPixInput)
  | move (id : String) (ledgerMint : Mint)
  | record (id : String)
  | meanwhile (step : BankStep)

def react (config : MockBankConfig) (traffic : Traffic) : Event → Traffic
  | .send nightly mint input => (sendComes config nightly mint traffic input).2
  | .refund now mint input => (refundComes now mint traffic input).2
  | .move id ledgerMint => (moves config ledgerMint traffic id).2
  | .record id => (records config traffic id).2
  | .meanwhile step => { traffic with bank := perform config traffic.bank step }

section Uninterrupted

variable {config : MockBankConfig} {bank : BankState} {traffic : Traffic} {mint : PaymentMint}
  {ledgerMint : Mint} {id : String} {request : Request}

theorem delete_set {V : Type} (t : Table String V) (k : String) (v : V) :
    (t.set k v).delete k = t.delete k := by
  have hrows : ∀ rows : List (String × V), (store k v rows).filter (fun r => decide (r.1 ≠ k)) =
      rows.filter fun r => decide (r.1 ≠ k) := by
    intro rows
    induction rows with
    | nil => simp [store]
    | cons r rows ih =>
      by_cases hr : r.1 = k
      · simp [store, hr]
      · rw [store, if_neg hr, List.filter_cons, List.filter_cons, ih]
  simp only [Table.delete, Table.set, hrows]

theorem moves_asked (h : traffic.underway.get id = some ⟨request, none⟩) :
    (moves config ledgerMint traffic id).2 =
      match Ledger.run traffic.bank.ledger ledgerMint (request.call config) with
      | (.error _, ledger) => ⟨{ traffic.bank with ledger }, traffic.underway.delete id⟩
      | (.ok posted, ledger) => ⟨{ traffic.bank with ledger },
        traffic.underway.set id ⟨request, some posted.transaction.id⟩⟩ := by
  unfold moves
  rw [h]
  dsimp only
  split <;> rfl

theorem records_answered {transactionId : String}
    (h : traffic.underway.get id = some ⟨request, some transactionId⟩) :
    (records config traffic id).2 =
      ⟨(recorded config traffic.bank transactionId request).2, traffic.underway.delete id⟩ := by
  unfold records
  rw [h]

theorem records_none (h : traffic.underway.get id = none) : (records config traffic id).2 = traffic := by
  unfold records
  rw [h]

/-- A request that nothing comes between is taken up and recorded at a stroke. -/
theorem move_record (hid : request.id = id) :
    (records config (moves config ledgerMint ⟨bank, Table.empty.set id ⟨request, none⟩⟩ id).2 id).2 =
      match Ledger.run bank.ledger ledgerMint (request.call config) with
      | (.error _, ledger) => ⟨{ bank with ledger }, .empty⟩
      | (.ok posted, ledger) =>
        ⟨(recorded config { bank with ledger } posted.transaction.id request).2, .empty⟩ := by
  subst hid
  rw [moves_asked (Table.get_set_self _ _ _)]
  dsimp only
  cases hrun : Ledger.run bank.ledger ledgerMint (request.call config) with
  | mk result ledger =>
    cases result with
    | error e =>
      have hnone : ((Table.empty.set request.id (⟨request, none⟩ : Underway)).delete request.id).get
          request.id = none := by rw [Table.get_delete, if_pos rfl]
      rw [records_none hnone, delete_set]
      rfl
    | ok posted =>
      rw [records_answered (Table.get_set_self _ _ _)]
      dsimp only
      rw [delete_set, delete_set]
      rfl

theorem send_uninterrupted (nightly : Bool) (input : SendPixInput) :
    [Event.send nightly mint input, .move mint.id ledgerMint, .record mint.id].foldl (react config)
      ⟨bank, .empty⟩ = ⟨(sendPix config nightly mint ledgerMint bank input).2, .empty⟩ := by
  simp only [List.foldl_cons, List.foldl_nil, react, sendComes, sendPix]
  cases existingId bank.store input.idempotencyKey with
  | some id => rfl
  | none =>
    dsimp only
    cases assertCanSend config nightly bank input with
    | error e => rfl
    | ok account =>
      have hid : (Request.send mint account input).id = mint.id := rfl
      dsimp only
      rw [move_record hid]
      dsimp only [Request.call]
      generalize Ledger.run bank.ledger ledgerMint _ = outcome
      obtain ⟨result, ledger⟩ := outcome
      cases result with
      | error e => rfl
      | ok posted =>
        dsimp only [recorded]
        split <;> rfl

theorem refund_uninterrupted (now : Int) (input : RefundPixInput) :
    [Event.refund now mint input, .move mint.id ledgerMint, .record mint.id].foldl (react config)
      ⟨bank, .empty⟩ = ⟨(refund now mint ledgerMint bank input).2, .empty⟩ := by
  simp only [List.foldl_cons, List.foldl_nil, react, refundComes, refund]
  cases existingId bank.store input.idempotencyKey with
  | some id => rfl
  | none =>
    dsimp only
    cases hassert : assertCanRefund bank.store now input with
    | error e => rfl
    | ok found =>
      obtain ⟨original, account⟩ := found
      have horiginal := findByEndToEndId_some (assertCanRefund_ok hassert).1
      have hid : (Request.refund mint original account input).id = mint.id := rfl
      dsimp only
      rw [move_record hid]
      dsimp only [Request.call]
      generalize Ledger.run bank.ledger ledgerMint _ = outcome
      obtain ⟨result, ledger⟩ := outcome
      cases result with
      | error e => rfl
      | ok posted =>
        dsimp only [recorded]
        rw [withGivenBack, horiginal]

end Uninterrupted

section Promises

variable (traffic : Traffic)

def paymentsUnder (key : String) : List MockPayment :=
  traffic.bank.store.payments.table.values.filter (·.idempotencyKey = some key)

def underwayUnder (key : String) : List Underway :=
  traffic.underway.values.filter (·.request.idempotencyKey = some key)

/-- The ids of what requests with the key have made, or are about to. -/
def idsUnder (key : String) : List String :=
  (paymentsUnder traffic key).map (·.id) ++ (underwayUnder traffic key).map (·.request.id)

/-- What the ledger has moved for the request of this id. -/
def MovementFor (id : String) (t : LedgerTransaction) : Prop :=
  (t.type = .PIX_OUT_AUTHORIZE ∨ t.type = .PIX_REFUND_OUT) ∧ t.externalRef = some id

instance (id : String) (t : LedgerTransaction) : Decidable (MovementFor id t) :=
  inferInstanceAs (Decidable (_ ∧ _))

def movementsUnder (key : String) : List LedgerTransaction :=
  traffic.bank.ledger.transactions.table.values.filter fun t =>
    ∃ id ∈ idsUnder traffic key, MovementFor id t

/-- Requests with one key make one payment, with one movement of the ledger. -/
structure Idempotent : Prop where
  payments : ∀ key, key ≠ "" → (paymentsUnder traffic key).length ≤ 1
  movements : ∀ key, key ≠ "" → (movementsUnder traffic key).length ≤ 1
  moved : ∀ key, key ≠ "" → paymentsUnder traffic key ≠ [] → movementsUnder traffic key ≠ []

def refundsOf (endToEndId : String) : List MockPayment :=
  traffic.bank.store.payments.table.values.filter (·.originalEndToEndId = some endToEndId)

/-- The refunds of a payment, if there are any, add up to at most its amount. -/
def RefundsBounded : Prop :=
  ∀ original ∈ traffic.bank.store.payments.table.values, ∀ endToEndId ∈ given original.endToEndId,
    refundsOf traffic endToEndId ≠ [] →
      ((refundsOf traffic endToEndId).map (·.amountCents)).sum ≤ original.amountCents

end Promises

section Conditions

/-- The request that an event sends on to the ledger, if the checks let it. -/
def asks (config : MockBankConfig) (bank : BankState) : Event → Option Request
  | .send nightly mint input =>
    match existingId bank.store input.idempotencyKey with
    | some _ => none
    | none => (assertCanSend config nightly bank input).toOption.map fun account =>
      .send mint account input
  | .refund now mint input =>
    match existingId bank.store input.idempotencyKey with
    | some _ => none
    | none => (assertCanRefund bank.store now input).toOption.map fun found =>
      .refund mint found.1 found.2 input
  | .move .. | .record .. | .meanwhile .. => none

/-- What a request is about to give back of a payment. -/
def Request.givingBack (originalId : String) : Request → Int
  | .send .. => 0
  | .refund _ original _ input => if original.id = originalId then max (refundAmount original input) 0 else 0

def givingBack (underway : Table String Underway) (originalId : String) : Int :=
  underway.total fun _ u => u.request.givingBack originalId

/-- There is room for a refund beside those that are underway. -/
def Room (traffic : Traffic) : Request → Prop
  | .send .. => True
  | .refund _ original _ input => 0 < refundAmount original input →
    original.refundedCents + givingBack traffic.underway original.id + refundAmount original input ≤
      original.amountCents

instance (traffic : Traffic) (request : Request) : Decidable (Room traffic request) := by
  cases request <;> unfold Room <;> infer_instance

/-- A request that goes on to the ledger finds none underway with its key, and room
for what it gives back. -/
def Apart (config : MockBankConfig) (traffic : Traffic) (event : Event) : Prop :=
  ∀ request ∈ asks config traffic.bank event,
    (∀ key ∈ given request.idempotencyKey, ∀ u ∈ traffic.underway.values,
      given u.request.idempotencyKey ≠ some key) ∧ Room traffic request

instance (config : MockBankConfig) (traffic : Traffic) (event : Event) :
    Decidable (Apart config traffic event) :=
  inferInstanceAs (Decidable (∀ request ∈ asks config traffic.bank event, _ ∧ _))

def Request.endToEndId : Request → Option String
  | .send mint .. => some mint.endToEndId
  | .refund .. => none

/-- The id and the end-to-end text that are given out are not in use. -/
def MintFresh (traffic : Traffic) (mint : PaymentMint) : Prop :=
  mint.id ≠ "" ∧ mint.endToEndId ≠ "" ∧ traffic.bank.store.payments.get mint.id = none ∧
    traffic.underway.get mint.id = none ∧
    traffic.bank.store.paymentsByEndToEndId.get mint.endToEndId = none ∧
    ∀ u ∈ traffic.underway.values, u.request.endToEndId ≠ some mint.endToEndId

instance (traffic : Traffic) (mint : PaymentMint) : Decidable (MintFresh traffic mint) :=
  inferInstanceAs (Decidable (_ ∧ _))

/-- What an event gives out is new. Beside requests, accounts are opened, payments come
in and are settled, and funds are blocked and released; no payment is forgotten. -/
def Fresh (traffic : Traffic) : Event → Prop
  | .send _ mint _ | .refund _ mint _ => MintFresh traffic mint
  | .move id ledgerMint => FreshTransaction traffic.bank.ledger ledgerMint.transactionId ∧
    ∀ u ∈ traffic.underway.get id, KeyFree traffic.bank.ledger u.request.ledgerKey
  | .record _ => True
  | .meanwhile step => Statements.Fresh traffic.bank step ∧
    match step with
    | .receivePix mint .. => MintFresh traffic mint
    | .create .. | .setStatus .. | .settleLater .. | .blockFunds .. | .voidPixOut .. => True
    | .sendPix .. | .refund .. | .forget .. | .reset => False

instance (traffic : Traffic) (event : Event) : Decidable (Fresh traffic event) :=
  match event with
  | .send _ mint _ | .refund _ mint _ => inferInstanceAs (Decidable (MintFresh traffic mint))
  | .move _ _ => inferInstanceAs (Decidable (_ ∧ _))
  | .record _ => .isTrue trivial
  | .meanwhile (.receivePix _ _ _) => inferInstanceAs (Decidable (_ ∧ MintFresh traffic _))
  | .meanwhile (.create _ _ _) | .meanwhile (.setStatus _ _) | .meanwhile (.settleLater _ _ _ _)
  | .meanwhile (.blockFunds _ _) | .meanwhile (.voidPixOut _ _) => inferInstanceAs (Decidable (_ ∧ True))
  | .meanwhile (.sendPix _ _ _ _) | .meanwhile (.refund _ _ _ _) | .meanwhile (.forget _)
  | .meanwhile .reset => inferInstanceAs (Decidable (_ ∧ False))

end Conditions

end BaasConnector.MockBank.Requests
