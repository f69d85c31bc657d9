import BaasConnector.Ledger.Placement
import BaasConnector.MockBank.RequestInvariant

namespace BaasConnector.MockBank.RequestRuns

open BaasConnector.Lib.Keyed BaasConnector.Lib.Runs BaasConnector.Ledger.Types
open BaasConnector.Ledger.Engine BaasConnector.Ledger.MemoryStore BaasConnector.Ledger.Outcomes
open BaasConnector.Ledger.Shadow BaasConnector.Ledger.ChartOfAccounts BaasConnector.Ledger.Reachable
open BaasConnector.Ledger.Calls BaasConnector.Ledger.Placement BaasConnector.Ledger.Consistency
open BaasConnector.Ledger.Availability BaasConnector.MockBank.Ledger
open BaasConnector.MockBank.Payments BaasConnector.MockBank.Statements BaasConnector.MockBank.StatementRuns
open BaasConnector.MockBank.Requests BaasConnector.MockBank.RequestInvariant

variable {config : MockBankConfig} {traffic : Traffic} {bank : BankState} {l : LedgerStore}
  {store : MockBankStore} {settling : Table String MockPayment} {underway : Table String Underway}
  {request : Request} {mint : PaymentMint} {ledgerMint m : Mint} {id key : String} {call : EngineCall}

structure Held (traffic : Traffic) : Prop where
  keys : KeysHeld traffic.bank.store traffic.underway
  refunds : RefundsHeld traffic.bank.store traffic.underway
  movements : MovementsHeld traffic.bank.ledger traffic.bank.store traffic.underway

section Promises

/-- The id of a request with the key, recorded or underway. -/
def Under (traffic : Traffic) (key id : String) : Prop :=
  fact keyOf traffic.bank.store id = some key ∨
    ∃ u, traffic.underway.get id = some u ∧ given u.request.idempotencyKey = some key

theorem given_some (h : key ≠ "") : given (some key) = some key := by
  rw [given, Option.filter_some, if_pos (decide_eq_true h)]

theorem given_text {text text' : String} (h : given (some text) = some text') : text = text' :=
  Option.some.inj (Option.filter_eq_some_iff.mp h).1

theorem mem_paymentsUnder {p : MockPayment} (h : key ≠ "") (hmem : p ∈ paymentsUnder traffic key) :
    fact keyOf traffic.bank.store p.id = some key := by
  obtain ⟨hvalue, hkey⟩ := List.mem_filter.mp hmem
  obtain ⟨k, hk⟩ := Table.mem_values.mp hvalue
  have hget : traffic.bank.store.payments.get k = some p := hk
  have hid : p.id = k := Rows.key_of_get hget
  rw [fact, hid, hget, Option.bind_some, keyOf, of_decide_eq_true hkey]
  exact given_some h

theorem mem_idsUnder (hheld : Held traffic) (h : key ≠ "") (hmem : id ∈ idsUnder traffic key) :
    Under traffic key id := by
  obtain hin | hin := List.mem_append.mp hmem
  · obtain ⟨p, hp, rfl⟩ := List.mem_map.mp hin
    exact .inl (mem_paymentsUnder h hp)
  · obtain ⟨u, hu, rfl⟩ := List.mem_map.mp hin
    obtain ⟨hvalue, hkey⟩ := List.mem_filter.mp hu
    obtain ⟨k, hget⟩ := Table.mem_values.mp hvalue
    refine .inr ⟨u, ?_, ?_⟩
    · rw [(hheld.keys.apart hget).1]
      exact hget
    · rw [of_decide_eq_true hkey]
      exact given_some h

theorem Under.unique {id' : String} (hheld : Held traffic) (h : Under traffic key id)
    (h' : Under traffic key id') : id = id' := by
  obtain hrecorded | ⟨u, hu, hkey⟩ := h
  · obtain hrecorded' | ⟨u', hu', hkey'⟩ := h'
    · exact Option.some.inj ((hheld.keys.indexed hrecorded).1.symm.trans (hheld.keys.indexed hrecorded').1)
    · exact absurd hrecorded (hheld.keys.unrecorded hu' hkey' id)
  · obtain hrecorded' | ⟨u', hu', hkey'⟩ := h'
    · exact absurd hrecorded' (hheld.keys.unrecorded hu hkey id')
    · exact hheld.keys.one hu hu' hkey hkey'

theorem Held.movement_unique (hheld : Held traffic) {t t' : LedgerTransaction} {tid tid' : String}
    (ht : traffic.bank.ledger.transactions.get tid = some t)
    (ht' : traffic.bank.ledger.transactions.get tid' = some t') (hm : MovementFor id t)
    (hm' : MovementFor id t') : tid = tid' := by
  have hexclusive : ∀ {u tid}, traffic.underway.get id = some u →
      fact movementOf traffic.bank.store id ≠ some tid := by
    intro u tid hu hfact
    rw [fact_none (hheld.keys.apart hu).2.2] at hfact
    cases hfact
  obtain hrecorded | ⟨u, hu, hanswered⟩ := hheld.movements.made ht hm
  · obtain hrecorded' | ⟨u', hu', hanswered'⟩ := hheld.movements.made ht' hm'
    · exact Option.some.inj (hrecorded.symm.trans hrecorded')
    · exact absurd hrecorded (hexclusive hu')
  · obtain hrecorded' | ⟨u', hu', hanswered'⟩ := hheld.movements.made ht' hm'
    · exact absurd hrecorded' (hexclusive hu)
    · obtain rfl := Option.some.inj (hu.symm.trans hu')
      exact Option.some.inj (hanswered.symm.trans hanswered')

theorem Held.idempotent (hheld : Held traffic) : Idempotent traffic := by
  refine ⟨fun key hne => ?_, fun key hne => ?_, fun key hne hsome => ?_⟩
  · refine Rows.length_filter_le_one fun v w hv hw hkv hkw => ?_
    have hfact : ∀ p : MockPayment, traffic.bank.store.payments.get p.id = some p →
        decide (p.idempotencyKey = some key) = true → fact keyOf traffic.bank.store p.id = some key := by
      intro p hget hkey
      rw [fact, hget, Option.bind_some, keyOf, of_decide_eq_true hkey]
      exact given_some hne
    exact Under.unique hheld (.inl (hfact v hv hkv)) (.inl (hfact w hw hkw))
  · refine Rows.length_filter_le_one fun t t' ht ht' hp hp' => ?_
    obtain ⟨id, hid, hm⟩ := of_decide_eq_true hp
    obtain ⟨id', hid', hm'⟩ := of_decide_eq_true hp'
    obtain rfl := Under.unique hheld (mem_idsUnder hheld hne hid) (mem_idsUnder hheld hne hid')
    exact hheld.movement_unique ht ht' hm hm'
  · obtain ⟨p, hp⟩ := List.exists_mem_of_ne_nil _ hsome
    obtain ⟨tid, t, ht, hm⟩ := hheld.movements.recorded (mem_paymentsUnder hne hp)
    refine List.ne_nil_of_mem (List.mem_filter.mpr ⟨Table.mem_values.mpr ⟨tid, ht⟩, decide_eq_true ?_⟩)
    exact ⟨p.id, List.mem_append_left _ (List.mem_map_of_mem hp), hm⟩

theorem Held.refundsBounded (hheld : Held traffic) : RefundsBounded traffic := by
  intro original hmem text htext hsome
  obtain ⟨k, hget⟩ := Table.mem_values.mp hmem
  have hcounted := hheld.refunds.counted hget htext
  have hroom := hheld.refunds.room hget
  have hnonneg : 0 ≤ givingBack traffic.underway k :=
    Table.total_nonneg fun _ u _ => givingBack_nonneg u.request k
  obtain ⟨q, hq⟩ := List.exists_mem_of_ne_nil _ hsome
  obtain ⟨hvalue, hnames⟩ := List.mem_filter.mp hq
  obtain ⟨kq, hgetq⟩ := Table.mem_values.mp hvalue
  have hpositive := (hheld.refunds.named hgetq (of_decide_eq_true hnames)).1
  have hterms : ∀ k v, traffic.bank.store.payments.get k = some v →
      0 ≤ if v.originalEndToEndId = some text then v.amountCents else 0 := by
    intro k v hv
    split
    · next hn => exact (hheld.refunds.named hv hn).1.le
    · exact Int.le_refl 0
  have hpart := Rows.le_total hgetq hterms
  rw [if_pos (of_decide_eq_true hnames)] at hpart
  have hsum : ((refundsOf traffic text).map (·.amountCents)).sum = refunded traffic.bank.store text := by
    rw [refundsOf, Rows.total_filter, refunded]
    simp only [decide_eq_true_eq]
  rw [hsum]
  change q.amountCents ≤ refunded traffic.bank.store text at hpart
  omega

end Promises

section Come

variable {nightly : Bool} {now : Int}

theorem come_held (h : Held traffic) (hfresh : MintFresh traffic mint) (hid : request.id = mint.id)
    (hexisting : existingId traffic.bank.store request.idempotencyKey = none)
    (htext : ∀ text, request.endToEndId = some text → text = mint.endToEndId)
    (hone : ∀ key ∈ given request.idempotencyKey, ∀ u ∈ traffic.underway.values,
      given u.request.idempotencyKey ≠ some key)
    (hroom : ∀ id o, traffic.bank.store.payments.get id = some o →
      o.refundedCents + givingBack traffic.underway id + request.givingBack id ≤ max o.amountCents 0)
    (haimed : Aimed traffic.bank.store request) :
    Held { traffic with underway := traffic.underway.set mint.id ⟨request, none⟩ } := by
  obtain ⟨hne, -, hnew, hnone, hunindexed, htexts⟩ := hfresh
  rw [← hid] at hne hnew hnone ⊢
  have hunrecorded : ∀ key, given request.idempotencyKey = some key →
      ∀ id, fact keyOf traffic.bank.store id ≠ some key := fun key hkey =>
    h.keys.unfound hexisting hkey
  have halone : ∀ key, given request.idempotencyKey = some key → ∀ id u, traffic.underway.get id = some u →
      given u.request.idempotencyKey ≠ some key := fun key hkey id u hget =>
    hone key hkey u (Table.mem_values.mpr ⟨id, hget⟩)
  refine ⟨h.keys.come hne hnew hunrecorded halone,
    h.refunds.come hnone (fun text hrequest => ?_) hroom haimed, h.movements.come hnone⟩
  obtain rfl := htext text hrequest
  exact ⟨hunindexed, fun id u hget => htexts u (Table.mem_values.mpr ⟨id, hget⟩)⟩

theorem send_held {input : SendPixInput} (h : Held traffic)
    (hfresh : Requests.Fresh traffic (.send nightly mint input))
    (hapart : Apart config traffic (.send nightly mint input)) :
    Held (sendComes config nightly mint traffic input).2 := by
  unfold sendComes
  cases hexisting : existingId traffic.bank.store input.idempotencyKey with
  | some id => exact h
  | none =>
    dsimp only
    cases hassert : assertCanSend config nightly traffic.bank input with
    | error e => exact h
    | ok account =>
      have hasks : asks config traffic.bank (.send nightly mint input) = some (.send mint account input) := by
        rw [asks, hexisting, hassert]
        rfl
      refine come_held h hfresh rfl hexisting (fun text htext => (Option.some.inj htext).symm)
        (hapart _ hasks).1 (fun id o hget => ?_) trivial
      have hroom := h.refunds.room hget
      change o.refundedCents + givingBack traffic.underway id + 0 ≤ _
      omega

theorem refund_held {input : RefundPixInput} (h : Held traffic)
    (hfresh : Requests.Fresh traffic (.refund now mint input))
    (hapart : Apart config traffic (.refund now mint input)) :
    Held (refundComes now mint traffic input).2 := by
  unfold refundComes
  cases hexisting : existingId traffic.bank.store input.idempotencyKey with
  | some id => exact h
  | none =>
    dsimp only
    cases hassert : assertCanRefund traffic.bank.store now input with
    | error e => exact h
    | ok found =>
      obtain ⟨original, account⟩ := found
      have hasks : asks config traffic.bank (.refund now mint input) =
          some (.refund mint original account input) := by
        rw [asks, hexisting, hassert]
        rfl
      obtain ⟨hone, hfits⟩ := hapart _ hasks
      obtain ⟨hfound, -, -⟩ := assertCanRefund_ok hassert
      have horiginal := findByEndToEndId_some hfound
      refine come_held h hfresh rfl hexisting (fun text htext => by cases htext) hone (fun id o hget => ?_)
        ⟨original, horiginal, rfl, ?_⟩
      · have hroom := h.refunds.room hget
        change o.refundedCents + givingBack traffic.underway id + (if original.id = id then _ else 0) ≤ _
        split
        · next heq =>
          subst heq
          obtain rfl := Option.some.inj (horiginal.symm.trans hget)
          by_cases hpositive : 0 < refundAmount original input
          · have hroom' : original.refundedCents + givingBack traffic.underway original.id +
                refundAmount original input ≤ original.amountCents := hfits hpositive
            omega
          · omega
        · omega
      · obtain ⟨id, hgiven, hget⟩ := Option.bind_eq_some_iff.mp hfound
        obtain ⟨hindexed, -⟩ := Option.filter_eq_some_iff.mp hgiven
        have hfact := h.refunds.indexed.mp hindexed
        rw [fact, hget, Option.bind_some] at hfact
        exact hfact

end Come

section Move

variable {posted : PostTransactionInput} {r : PostTransactionResult}

/-- A posting that goes through moves something for the payment it names, and every
amount in it is positive. -/
theorem posted_moves (hfree : KeyFree l posted.idempotencyKey)
    (hr : ((EngineCall.post m posted).run l).1 = .ok r) (hmoving : Moving posted.type)
    (href : posted.externalRef = some id) :
    (∃ t, (((EngineCall.post m posted).run l).2).transactions.get r.transaction.id = some t ∧
      MovementFor id t) ∧
      ∀ e ∈ posted.entries, 0 < e.amountCents := by
  obtain ⟨debits, hbalanced, hstored, -⟩ := posted_stands hfree hr
  exact ⟨⟨_, hstored, hmoving, href⟩, (assertBalanced_ok hbalanced).2⟩

/-- What a request asks of the ledger is a movement for its id. -/
theorem request_call (hcall : callOf l m (request.call config) = some call) :
    ∃ posted, call = .post m posted ∧ Moving posted.type ∧ posted.externalRef = some request.id ∧
      posted.idempotencyKey = request.ledgerKey ∧
      ((∀ e ∈ posted.entries, 0 < e.amountCents) → Positive request) := by
  cases request with
  | send mint account input =>
    obtain ⟨taken, -, rfl, -⟩ := authorizePixOut_spec hcall
    exact ⟨_, rfl, .inl rfl, rfl, rfl, fun _ => trivial⟩
  | refund mint original account input =>
    obtain ⟨external, -, rfl⟩ := postRefund_spec hcall
    refine ⟨_, rfl, .inr rfl, rfl, rfl, fun hpositive => ?_⟩
    exact hpositive _ List.mem_cons_self

theorem move_held (h : Held traffic) (hfresh : Requests.Fresh traffic (.move id ledgerMint)) :
    Held (moves config ledgerMint traffic id).2 := by
  obtain ⟨htransaction, hkeys⟩ := hfresh
  cases hget : traffic.underway.get id with
  | none =>
    unfold moves
    rw [hget]
    exact h
  | some u =>
    obtain ⟨request, answered⟩ := u
    cases answered with
    | some transactionId =>
      unfold moves
      rw [hget]
      exact h
    | none =>
      rw [moves_asked hget]
      have hrefused : Held ⟨traffic.bank, traffic.underway.delete id⟩ :=
        ⟨h.keys.within (within_delete _ id), h.refunds.delete hget, h.movements.refuse hget⟩
      cases hcall : callOf traffic.bank.ledger ledgerMint (request.call config) with
      | none =>
        obtain ⟨e, he⟩ := run_refused hcall
        rw [he]
        exact hrefused
      | some call =>
        obtain ⟨posted, hposting, hmoving, href, hkey, hpositive⟩ := request_call hcall
        have hfree : KeyFree traffic.bank.ledger call.key := by
          rw [hposting]
          change KeyFree traffic.bank.ledger posted.idempotencyKey
          rw [hkey]
          exact hkeys _ hget
        obtain ⟨e, he, -⟩ | ⟨r, hrun, hr, -⟩ := run_spec hcall hfree
        · rw [he]
          exact hrefused
        · rw [hrun]
          have hcallfresh := fresh_of_mint hcall htransaction
          have hkept := h.movements.kept
          have hid : request.id = id := (h.keys.apart hget).1
          subst hposting
          rw [hid] at href
          obtain ⟨hmoved, hamounts⟩ := posted_moves hfree hr hmoving href
          refine ⟨h.keys.within (within_answer hget _), h.refunds.answer hget (hpositive hamounts) _,
            h.movements.answer (call_kept hkept hcallfresh) hget (fun {tid t' id'} hgot hm => ?_)
              (fun hgot hm => run_after hkept hcallfresh hgot hm) hmoved⟩
          obtain hold | ⟨-, hnew⟩ := run_before hgot hm
          · exact .inl hold
          · obtain ⟨href', r', hr', hsame⟩ := hnew _ _ rfl
            obtain rfl := Except.ok.inj (hr.symm.trans hr')
            exact .inr ⟨Option.some.inj (href'.symm.trans href), hsame.symm⟩

end Move

section Record

theorem record_held (h : Held traffic) : Held (records config traffic id).2 := by
  cases hget : traffic.underway.get id with
  | none =>
    rw [records_none hget]
    exact h
  | some u =>
    obtain ⟨request, answered⟩ := u
    cases answered with
    | none =>
      unfold records
      rw [hget]
      exact h
    | some transactionId =>
      obtain ⟨hid, hne, hnew⟩ := h.keys.apart hget
      have hdeleted : (traffic.underway.delete id).get id = none := by rw [Table.get_delete, if_pos rfl]
      have hkeys := h.keys.within (within_delete traffic.underway id)
      have hfree : ∀ key, given request.idempotencyKey = some key →
          (∀ id', fact keyOf traffic.bank.store id' ≠ some key) ∧
            ∀ id' u, (traffic.underway.delete id).get id' = some u →
              given u.request.idempotencyKey ≠ some key := by
        intro key hkey
        refine ⟨h.keys.unrecorded hget hkey, fun id' u hu hkey' => ?_⟩
        rw [Table.get_delete] at hu
        split at hu
        · cases hu
        · next hother => exact hother (h.keys.one hget hu hkey hkey').symm
      rw [records_answered hget]
      cases request with
      | send mint account input =>
        subst hid
        let payment := outgoingPayment config mint account input transactionId
        have hheld : Held ⟨{ traffic.bank with store := persist traffic.bank.store payment },
            traffic.underway.delete mint.id⟩ := by
          refine ⟨hkeys.persist hne hdeleted hfree, (h.refunds.delete hget).persist hnew rfl rfl
            fun text htext => ?_, h.movements.record hget rfl hnew rfl⟩
          have hsame : mint.endToEndId = text := given_text htext
          subst hsame
          refine ⟨h.refunds.unindexed hget rfl, fun id' u hu hue => ?_⟩
          rw [Table.get_delete] at hu
          split at hu
          · cases hu
          · next hother => exact hother (h.refunds.one hget hu rfl hue).symm
        dsimp only [recorded]
        split
        · exact hheld
        · exact ⟨hheld.keys, hheld.refunds, hheld.movements⟩
      | refund mint original account input =>
        subst hid
        obtain ⟨o, ho, -⟩ := h.refunds.aimed hget
        have ht := touches_givenBack ho (refundAmount original input)
        exact ⟨(hkeys.touch ht).persist hne hdeleted fun key hkey => ⟨fun id' => by
          rw [ht.fact (fun _ => rfl)]
          exact (hfree key hkey).1 id', (hfree key hkey).2⟩, h.refunds.refund hget rfl hnew,
            (h.movements.touch ht).record hget rfl (ht.none hnew) rfl⟩

end Record

section Meanwhile

variable {c : LedgerCall}

/-- The accounts of the bank play no part. -/
theorem Held.accounts (h : Held ⟨⟨l, store, settling⟩, underway⟩)
    (accounts : Rows String MockAccount MockAccount.id) :
    Held ⟨⟨l, { store with accounts }, settling⟩, underway⟩ := by
  obtain ⟨hkeys, hrefunds, hmovements⟩ := h
  exact ⟨⟨hkeys.indexed, hkeys.apart, hkeys.unrecorded, hkeys.one⟩,
    ⟨hrefunds.indexed, hrefunds.unindexed, hrefunds.one, hrefunds.named, hrefunds.counted, hrefunds.room,
      hrefunds.aimed, hrefunds.positive⟩,
    ⟨hmovements.kept, hmovements.made, hmovements.recorded, hmovements.answered⟩⟩

/-- The call is not one that requests make. -/
def Aside : LedgerCall → Prop
  | .authorizePixOut .. | .postRefund .. => False
  | .creditFromExternal .. | .settlePixOut .. | .settleExternal .. | .voidPixOut .. | .blockFunds .. => True

theorem silent_of_aside (haside : Aside c) (hcall : callOf l m c = some call) : Silent call := by
  cases c with
  | authorizePixOut options => cases haside
  | postRefund options => cases haside
  | creditFromExternal options =>
    obtain ⟨external, -, rfl⟩ := creditFromExternal_spec hcall
    simp [Silent, Moving, posting]
  | settleExternal options =>
    obtain ⟨clearing, external, -, -, rfl⟩ := settleExternal_spec hcall
    simp [Silent, Moving, posting]
  | settlePixOut options =>
    obtain rfl := Option.some.inj hcall
    exact ⟨_, rfl, by simp [Moving]⟩
  | voidPixOut options =>
    obtain rfl := Option.some.inj hcall
    exact ⟨_, rfl, by simp [Moving]⟩
  | blockFunds options =>
    obtain rfl := Option.some.inj hcall
    cases hunblock : options.unblock <;> simp [Silent, Moving, Ledger.blockFunds, posting, hunblock]

theorem aside_quiet (hkept : Kept l) (haside : Aside c) (hfresh : FreshTransaction l m.transactionId) :
    Kept (Ledger.run l m c).2 ∧ Quiet l (Ledger.run l m c).2 := by
  cases hcall : callOf l m c with
  | none =>
    obtain ⟨e, he⟩ := run_refused hcall
    rw [he]
    exact ⟨hkept, Quiet.refl l⟩
  | some call =>
    have hcallfresh := fresh_of_mint hcall hfresh
    rw [run_eq hcall]
    exact ⟨call_kept hkept hcallfresh, run_quiet hkept hcallfresh (silent_of_aside haside hcall)⟩

theorem Held.aside (h : Held ⟨⟨l, store, settling⟩, underway⟩) (haside : Aside c)
    (hfresh : FreshTransaction l m.transactionId) (settling' : Table String MockPayment) :
    Held ⟨⟨(Ledger.run l m c).2, store, settling'⟩, underway⟩ := by
  obtain ⟨hkept, hquiet⟩ := aside_quiet h.movements.kept haside hfresh
  exact ⟨h.keys, h.refunds, h.movements.quiet hkept hquiet⟩

theorem create_held {availableId blockedId : String} (h : Held traffic)
    (hfresh : (Operation.openCustomerAccounts availableId blockedId id).Fresh traffic.bank.ledger) :
    Held { traffic with bank := create traffic.bank id availableId blockedId } := by
  have hkept : Kept (openCustomerAccounts traffic.bank.ledger availableId blockedId id) :=
    @perform_kept _ (.openCustomerAccounts availableId blockedId id) h.movements.kept hfresh
  have htransactions := (openCustomerAccounts_eq traffic.bank.ledger availableId blockedId id).2.1
  have hquiet : Quiet traffic.bank.ledger
      (openCustomerAccounts traffic.bank.ledger availableId blockedId id) := by
    refine ⟨fun {tid t' id'} hget hm => ?_, fun {tid t id'} hget hm => ?_⟩
    · rw [htransactions] at hget
      exact ⟨t', hget, hm⟩
    · rw [htransactions]
      exact ⟨t, hget, hm⟩
  have hheld : Held ⟨⟨openCustomerAccounts traffic.bank.ledger availableId blockedId id, traffic.bank.store,
      traffic.bank.settling⟩, traffic.underway⟩ :=
    ⟨h.keys, h.refunds, h.movements.quiet hkept hquiet⟩
  exact hheld.accounts _

theorem settled_held (h : Held ⟨⟨l, store, settling⟩, underway⟩) (id : String) (settledAt : Int) :
    Held ⟨⟨l, settled store id settledAt, settling⟩, underway⟩ := by
  unfold settled
  cases hget : store.payments.get id with
  | none => exact h
  | some payment =>
    have hid : payment.id = id := Rows.key_of_get hget
    let now : MockPayment := { payment with status := .SETTLED, settledAt := some settledAt }
    have ht : Touches store { store with payments := store.payments.put now } now payment :=
      ⟨by rw [← hid] at hget; exact hget, rfl, rfl⟩
    exact ⟨h.keys.touch ht, h.refunds.touch ht rfl, h.movements.touch ht⟩

theorem settleLater_held {commitMint externalMint : Mint} {settledAt : Int} (h : Held traffic)
    (hfresh : Statements.Fresh traffic.bank (.settleLater id commitMint externalMint settledAt)) :
    Held { traffic with bank := settleLater traffic.bank id commitMint externalMint settledAt } := by
  unfold settleLater
  cases hget : traffic.bank.settling.get id with
  | none => exact h
  | some payment =>
    obtain ⟨htransaction, -, hexternal⟩ := hfresh payment hget
    have hcommitted := h.aside (c := .settlePixOut (settleOptions payment)) trivial htransaction
      (traffic.bank.settling.delete id)
    dsimp only
    cases hcommit : Ledger.run traffic.bank.ledger commitMint (.settlePixOut (settleOptions payment)) with
    | mk result ledger =>
      rw [hcommit] at hcommitted hexternal
      cases result with
      | error e => exact hcommitted
      | ok r =>
        have hsettled := hcommitted.aside (c := .settleExternal (settleOptions payment)) trivial hexternal
          (traffic.bank.settling.delete id)
        dsimp only at hsettled ⊢
        cases hrun : Ledger.run ledger externalMint (.settleExternal (settleOptions payment)) with
        | mk result ledger' =>
          rw [hrun] at hsettled
          cases result with
          | error e => exact hsettled
          | ok r => exact settled_held hsettled id settledAt

theorem receivePix_held {input : ReceivePixInput} (h : Held traffic) (hmint : MintFresh traffic mint)
    (hfresh : Statements.Fresh traffic.bank (.receivePix mint ledgerMint input)) :
    Held { traffic with bank := (receivePix mint ledgerMint traffic.bank input).2 } := by
  obtain ⟨hne, -, hnew, hnone, hunindexed, htexts⟩ := hmint
  obtain ⟨-, htransaction, -⟩ := hfresh
  have hrecorded : ∀ l accountId transactionId,
      Held ⟨⟨l, traffic.bank.store, traffic.bank.settling⟩, traffic.underway⟩ →
      Held ⟨⟨l, persist traffic.bank.store (incomingPayment mint accountId input transactionId),
        traffic.bank.settling⟩, traffic.underway⟩ := by
    intro l accountId transactionId h
    refine ⟨h.keys.persist hne hnone fun key hkey => ?_, h.refunds.persist hnew rfl rfl
      fun text htext => ?_, h.movements.persist hnew rfl⟩
    · cases hkey
    · have hsame : mint.endToEndId = text := given_text htext
      subst hsame
      exact ⟨hunindexed, fun id u hget => htexts u (Table.mem_values.mpr ⟨id, hget⟩)⟩
  unfold receivePix
  cases resolveReceiver traffic.bank.store input with
  | error e => exact h
  | ok receiver =>
    cases receiver with
    | none => exact hrecorded _ suspense none h
    | some account =>
      have hcredited := h.aside (c := .creditFromExternal (creditOptions mint account input)) trivial
        htransaction traffic.bank.settling
      dsimp only
      cases hrun : Ledger.run traffic.bank.ledger ledgerMint
          (.creditFromExternal (creditOptions mint account input)) with
      | mk result ledger =>
        rw [hrun] at hcredited
        cases result with
        | error e => exact hcredited
        | ok r => exact hrecorded _ account.id (some r.transaction.id) hcredited

theorem meanwhile_held {step : BankStep} (h : Held traffic)
    (hfresh : Requests.Fresh traffic (.meanwhile step)) :
    Held { traffic with bank := perform config traffic.bank step } := by
  obtain ⟨hfresh, hallowed⟩ := hfresh
  cases step with
  | create id availableId blockedId => exact create_held h hfresh.1
  | setStatus id status =>
    change Held ⟨setStatus traffic.bank id status, traffic.underway⟩
    unfold setStatus
    split
    · exact h
    · exact h.accounts _
  | sendPix nightly mint ledgerMint input => cases hallowed
  | settleLater id commitMint externalMint settledAt => exact settleLater_held h hfresh
  | receivePix mint ledgerMint input => exact receivePix_held h hallowed hfresh
  | refund now mint ledgerMint input => cases hallowed
  | blockFunds ledgerMint options => exact h.aside (c := .blockFunds options) trivial hfresh _
  | voidPixOut ledgerMint options => exact h.aside (c := .voidPixOut options) trivial hfresh _
  | forget transactionId => cases hallowed
  | reset => cases hallowed

end Meanwhile

theorem react_held {event : Event} (h : Held traffic) (hfresh : Requests.Fresh traffic event)
    (hapart : Apart config traffic event) : Held (react config traffic event) := by
  cases event with
  | send nightly mint input => exact send_held h hfresh hapart
  | refund now mint input => exact refund_held h hfresh hapart
  | move id ledgerMint => exact move_held h hfresh
  | record id => exact record_held h
  | meanwhile step => exact meanwhile_held h hfresh

/-- The bank before its first account, with no request underway. -/
def opening (newId : Nat → String) : Traffic := ⟨start newId, .empty⟩

theorem empty_keys : KeysHeld .empty .empty where
  indexed hkey := by cases hkey
  apart hget := by cases hget
  unrecorded hget := by cases hget
  one hget := by cases hget

theorem empty_refunds : RefundsHeld .empty .empty where
  indexed := ⟨fun hget => (by cases hget), fun hfact => (by cases hfact)⟩
  unindexed hget := by cases hget
  one hget := by cases hget
  named hget := by cases hget
  counted hget := by cases hget
  room hget := by cases hget
  aimed hget := by cases hget
  positive hget := by cases hget

theorem empty_movements (hkept : Kept l) (hquiet : l.transactions = .empty) :
    MovementsHeld l .empty .empty where
  kept := hkept
  made hget := by
    rw [hquiet] at hget
    cases hget
  recorded hkey := by cases hkey
  answered hget := by cases hget

theorem empty_held (hkept : Kept l) (hquiet : l.transactions = .empty) :
    Held ⟨⟨l, .empty, .empty⟩, .empty⟩ :=
  ⟨empty_keys, empty_refunds, empty_movements hkept hquiet⟩

theorem opening_held {newId : Nat → String}
    (hids : ((List.range singletonAccounts.length).map newId).Nodup) : Held (opening newId) := by
  have htransactions : (newStore newId).transactions = .empty :=
    (createAll_eq .empty (((List.range singletonAccounts.length).map newId).zip singletonAccounts)).2.1
  dsimp only [opening, start]
  exact empty_held (newStore_kept hids) htransactions

/-- Throughout a run of requests, each let in apart from those like it, requests with
one key make one payment and one movement, and no payment is refunded beyond its amount. -/
theorem requests_made_once (config : MockBankConfig) (newId : Nat → String)
    (hids : ((List.range singletonAccounts.length).map newId).Nodup) (events : List Event)
    (hfresh : Each (react config) (opening newId) Requests.Fresh events)
    (hapart : Each (react config) (opening newId) (Apart config) events) :
    Throughout (react config) (opening newId) (fun traffic => Idempotent traffic ∧ RefundsBounded traffic)
      events := by
  have hheld : Throughout (react config) (opening newId) Held events :=
    throughout_of_kept (fun _ _ h hevent => react_held h hevent.1 hevent.2) (opening_held hids)
      (hfresh.and hapart)
  exact hheld.imp fun traffic h => ⟨h.idempotent, h.refundsBounded⟩

/-- An account that two payments of 1000 come in for. -/
def funding : List Event :=
  [.meanwhile (.create "acc" "c0" "c1"), .meanwhile (.setStatus "acc" .ACTIVE),
    .meanwhile (.receivePix ⟨"p0", "E0", 1, 1⟩ (mintAt "t0" 1) ⟨some "acc", none, 1000, none⟩),
    .meanwhile (.receivePix ⟨"p1", "E1", 2, 2⟩ (mintAt "t1" 2) ⟨some "acc", none, 1000, none⟩)]

def sendEvent (id endToEndId : String) : Event :=
  .send false ⟨id, endToEndId, 3, 3⟩ ⟨"acc", 400, some "key", none⟩

def refundEvent (id : String) (amountCents : Int) : Event :=
  .refund 4 ⟨id, "D-" ++ id, 4, 4⟩ ⟨"acc", "E0", some amountCents, none⟩

/-- A payment is asked for twice, and a refund while another is underway. -/
def apartEvents : List Event :=
  funding ++ [sendEvent "p2" "E2", .move "p2" (mintAt "t2" 3), .record "p2", sendEvent "p3" "E3",
    refundEvent "p4" 300, refundEvent "p5" 200, .move "p5" (mintAt "t5" 4), .move "p4" (mintAt "t4" 4),
    .record "p4", .record "p5"]

theorem requests_made_once_apart :
    let traffic := apartEvents.foldl (react sampleConfig) (opening sampleId)
    (paymentsUnder traffic "key").length = 1 ∧
      ((refundsOf traffic "E0").map (·.amountCents)).sum = 500 ∧
      Throughout (react sampleConfig) (opening sampleId)
        (fun traffic => Idempotent traffic ∧ RefundsBounded traffic) apartEvents :=
  ⟨by decide +kernel, by decide +kernel, requests_made_once sampleConfig sampleId (by decide)
    apartEvents (by decide) (by decide)⟩

/-- Two requests that pass their checks before either is recorded are both made. -/
theorem overlapping_requests_made_twice :
    let sends := funding ++ [sendEvent "p2" "E2", sendEvent "p3" "E3", .move "p2" (mintAt "t2" 3),
      .move "p3" (mintAt "t3" 3), .record "p2", .record "p3"]
    let refunds := funding ++ [refundEvent "p4" 700, refundEvent "p5" 700, .move "p4" (mintAt "t4" 4),
      .move "p5" (mintAt "t5" 4), .record "p4", .record "p5"]
    let run := fun events => List.foldl (react sampleConfig) (opening sampleId) events
    Each (react sampleConfig) (opening sampleId) Requests.Fresh sends ∧
      (paymentsUnder (run sends) "key").length = 2 ∧ (movementsUnder (run sends) "key").length = 2 ∧
      Each (react sampleConfig) (opening sampleId) Requests.Fresh refunds ∧
      ((refundsOf (run refunds) "E0").map (·.amountCents)).sum = 1400 ∧
      ((run refunds).bank.store.payments.get "p0").map (·.amountCents) = some 1000 := by
  decide

end BaasConnector.MockBank.RequestRuns
