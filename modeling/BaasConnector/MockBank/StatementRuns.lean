import BaasConnector.MockBank.StatementInvariant

namespace BaasConnector.MockBank.StatementRuns

open BaasConnector.Connector.Records (PaymentDirection)
open BaasConnector.Lib.Keyed BaasConnector.Lib.Results BaasConnector.Lib.Runs BaasConnector.Lib.Stamps
open BaasConnector.Taxonomy.Status BaasConnector.Ledger.Types BaasConnector.Ledger.Engine
open BaasConnector.Ledger.MemoryStore BaasConnector.Ledger.Outcomes BaasConnector.Ledger.Adjustments
open BaasConnector.Ledger.Shadow BaasConnector.Ledger.Invariants BaasConnector.Ledger.ChartOfAccounts
open BaasConnector.Ledger.Reachable BaasConnector.Ledger.Calls BaasConnector.Ledger.Consistency
open BaasConnector.Ledger.Availability BaasConnector.Ledger.Stamped BaasConnector.MockBank.Errors
open BaasConnector.MockBank.Ledger BaasConnector.MockBank.Payments BaasConnector.MockBank.Statements
open BaasConnector.MockBank.StatementInvariant

variable {l : LedgerStore} {store : MockBankStore} {bank : BankState} {call : EngineCall}
  {payment new : MockPayment} {mint : PaymentMint} {ledgerMint : Mint} {k id : String} {t : Int}
  {config : MockBankConfig}

theorem signedPayment_eq (payment : MockPayment) : signedPayment payment =
    (match payment.direction with
      | .incoming => payment.amountCents
      | .outgoing => -payment.amountCents) - if 0 < payment.feeCents then payment.feeCents else 0 := by
  unfold signedPayment linesOf
  by_cases hfee : 0 < payment.feeCents
  · rw [if_pos hfee, if_pos hfee]
    cases payment.direction <;> simp [signedCents, sub_eq_add_neg]
  · rw [if_neg hfee, if_neg hfee]
    cases payment.direction <;> simp [signedCents]

theorem ne_of_waiting (h : Reconciled bank) (hnone : bank.settling.get mint.id = none)
    (hwaiting : bank.settling.get id = some payment) : payment.id ≠ mint.id := by
  rintro heq
  rw [← heq, (h.waiting hwaiting).1, hwaiting] at hnone
  cases hnone

theorem getAccount_ok {account : MockAccount} (h : getAccount store id = .ok account) :
    store.accounts.get account.id = some account ∧ account.id = id := by
  unfold getAccount at h
  cases hget : store.accounts.get id with
  | none =>
    rw [hget] at h
    cases h
  | some found =>
    rw [hget] at h
    obtain rfl := Except.ok.inj h
    have hid : found.id = id := Rows.key_of_get hget
    rw [hid]
    exact ⟨hget, rfl⟩

/-- A payment of an account is stated there as its call moves there. -/
theorem statedBy_eq (net : Int) (h : Matched l store) {own account : MockAccount}
    (hown : store.accounts.get own.id = some own) (hget : store.accounts.get id = some account)
    (hpayment : new.accountId = own.id) (hin : InStatement new) (haccepted : call.accepted l = true)
    (hinstant : new.effectiveAt = call.effectiveAt) (hsigned : signedPayment new = net)
    (hnet : netOn l call account.availableLedgerAccountId .CREDIT =
      if own.availableLedgerAccountId = account.availableLedgerAccountId then net else 0) :
    statedBy id t new = netUpTo l call account.availableLedgerAccountId t := by
  unfold statedBy netUpTo
  rw [hnet, hpayment, hinstant, hsigned]
  by_cases hid : own.id = id
  · obtain rfl := Option.some.inj (hown.symm.trans (hid ▸ hget))
    simp [hid, hin, haccepted]
  · have hne : own.availableLedgerAccountId ≠ account.availableLedgerAccountId := fun hsame =>
      hid (h.account_inj hown hget hsame)
    simp [hid, hne]

/-- What a posting of two legs moves on an account. -/
theorem netOn_legs (type : LedgerTransactionType) (key : String) (i j : LedgerEntryInput)
    (externalRef description : Option String) (normal : NormalBalance) :
    netOn l (.post ledgerMint (posting type .POSTED key [i, j] externalRef description)) k normal =
      (if i.accountId = k then signedFor normal i else 0) +
        if j.accountId = k then signedFor normal j else 0 := by
  change (([i, j].filter (·.accountId = k)).map (signedFor normal)).sum = _
  by_cases hi : i.accountId = k <;> by_cases hj : j.accountId = k <;> simp [hi, hj]

section Receive

variable {input : ReceivePixInput}

theorem resolveReceiver_some {account : MockAccount}
    (h : resolveReceiver store input = .ok (some account)) :
    store.accounts.get account.id = some account := by
  unfold resolveReceiver at h
  split at h
  · obtain ⟨found, hfound, heq⟩ := map_eq_ok.mp h
    obtain rfl := Option.some.inj heq
    exact (getAccount_ok hfound).1
  · split at h
    · obtain ⟨found, hfound, heq⟩ := map_eq_ok.mp h
      obtain rfl := Option.some.inj heq
      exact (getAccount_ok hfound).1
    · cases h

theorem receivePix_reconciled (h : Reconciled bank)
    (hfresh : Statements.Fresh bank (.receivePix mint ledgerMint input))
    (hmatches : Matches bank (.receivePix mint ledgerMint input)) :
    Reconciled (receivePix mint ledgerMint bank input).2 := by
  obtain ⟨⟨hnew, hsettling⟩, htransaction, hfree⟩ := hfresh
  unfold receivePix
  cases hreceiver : resolveReceiver bank.store input with
  | error e => exact h
  | ok receiver =>
    cases receiver with
    | none =>
      refine ⟨h.matched.restate (Keeps.refl rfl) fun id account hget t => ?_, fun {id payment} hw => ?_,
        h.suspended⟩
      · rw [linesUpTo_persist hnew]
        have hne : suspense ≠ id := by
          rintro rfl
          rw [h.suspended] at hget
          cases hget
        exact (congrArg (_ + ·) (if_neg fun hs => hne hs.1)).trans (Int.add_zero _)
      · obtain ⟨hid, hwaiting⟩ := h.waiting hw
        exact ⟨hid, hwaiting.persist (ne_of_waiting h hsettling hw)⟩
    | some own =>
      have hown := resolveReceiver_some hreceiver
      dsimp only
      cases hcall : callOf bank.ledger ledgerMint (.creditFromExternal (creditOptions mint own input)) with
      | none =>
        obtain ⟨e, he⟩ := run_refused hcall
        rw [he]
        exact h
      | some call =>
        have hcrediting : crediting bank mint ledgerMint input = some call := by
          rw [crediting, hreceiver]
          exact hcall
        obtain ⟨horder, hdated⟩ := hmatches call hcrediting
        obtain ⟨external, hexternal, hposting⟩ := creditFromExternal_spec hcall
        obtain ⟨e, he, -⟩ | ⟨r, hr, -, haccepted⟩ := run_spec hcall (by rw [hposting]; exact hfree)
        · rw [he]
          exact h
        · rw [hr]
          have hcallfresh := fresh_of_mint hcall htransaction
          refine ⟨h.matched.after hcallfresh horder (Keeps.refl rfl) fun id account hget t => ?_,
            fun {id payment} hw => ?_, h.suspended⟩
          · rw [linesUpTo_persist hnew]
            have hin : InStatement (incomingPayment mint own.id input (some r.transaction.id)) := by
              simp [InStatement, incomingPayment, settledForStatement]
            refine congrArg (_ + ·) (statedBy_eq input.amountCents h.matched hown hget rfl hin
              haccepted ?_ ?_ ?_)
            · rw [hposting]
              exact hdated haccepted
            · simp [signedPayment_eq, incomingPayment]
            · have hne := ne_of_bank (h.matched.seated hget) hexternal (by decide)
              rw [hposting, netOn_legs, if_neg hne, Int.zero_add]
              rfl
          · obtain ⟨hid, hwaiting⟩ := h.waiting hw
            exact ⟨hid, (hwaiting.after h.matched.kept hcallfresh).persist (ne_of_waiting h hsettling hw)⟩

end Receive

section Refund

variable {input : RefundPixInput} {now : Int} {original : MockPayment} {own : MockAccount}

theorem findByEndToEndId_some {endToEndId : String} (h : findByEndToEndId store endToEndId = some original) :
    store.payments.get original.id = some original := by
  obtain ⟨id, -, hget⟩ := Option.bind_eq_some_iff.mp h
  have hid : original.id = id := Rows.key_of_get hget
  rw [hid]
  exact hget

theorem assertCanRefund_ok (h : assertCanRefund store now input = .ok (original, own)) :
    findByEndToEndId store input.originalEndToEndId = some original ∧
      original.refundedCents + refundAmount original input ≤ original.amountCents ∧
      store.accounts.get own.id = some own := by
  unfold assertCanRefund at h
  cases hfind : findByEndToEndId store input.originalEndToEndId with
  | none =>
    rw [hfind] at h
    cases h
  | some found =>
    rw [hfind] at h
    dsimp only at h
    split at h
    · cases h
    · split at h
      · cases h
      · next hroom =>
        obtain ⟨account, haccount, heq⟩ := bind_eq_ok.mp h
        obtain ⟨rfl, rfl⟩ := Prod.mk.inj (Except.ok.inj heq)
        exact ⟨rfl, Int.not_lt.mp hroom, (getAccount_ok haccount).1⟩

theorem givenBack_stated (amountCents : Int) (hin : InStatement original) :
    statedBy id t (givenBack original amountCents) = statedBy id t original := by
  have hin' : InStatement (givenBack original amountCents) := by
    unfold InStatement givenBack
    dsimp only
    split <;> decide
  unfold statedBy
  rw [signedPayment_eq, signedPayment_eq]
  simp only [hin, hin', true_and]
  rfl

theorem refund_reconciled (h : Reconciled bank)
    (hfresh : Statements.Fresh bank (.refund now mint ledgerMint input))
    (hmatches : Matches bank (.refund now mint ledgerMint input)) :
    Reconciled (refund now mint ledgerMint bank input).2 := by
  obtain ⟨⟨hnew, hsettling⟩, htransaction, hfree⟩ := hfresh
  unfold refund
  cases hexisting : existingId bank.store input.idempotencyKey with
  | some id => exact h
  | none =>
    dsimp only
    cases hassert : assertCanRefund bank.store now input with
    | error e => exact h
    | ok found =>
      obtain ⟨original, own⟩ := found
      obtain ⟨hfound, -, hown⟩ := assertCanRefund_ok hassert
      have horiginal := findByEndToEndId_some hfound
      dsimp only
      cases hcall : callOf bank.ledger ledgerMint (.postRefund (refundOptions mint original own input)) with
      | none =>
        obtain ⟨e, he⟩ := run_refused hcall
        rw [he]
        exact h
      | some call =>
        have hrefunding : refunding bank now mint ledgerMint input = some (original, call) := by
          rw [refunding, hexisting, hassert]
          change (callOf _ _ _ >>= _) = _
          rw [hcall]
          rfl
        obtain ⟨horder, hdated⟩ := hmatches (original, call) hrefunding
        obtain ⟨external, hexternal, hposting⟩ := postRefund_spec hcall
        obtain ⟨e, he, -⟩ | ⟨r, hr, -, haccepted⟩ := run_spec hcall (by rw [hposting]; exact hfree)
        · rw [he]
          exact h
        · rw [hr]
          dsimp only
          obtain ⟨hsettled, hin⟩ := hdated haccepted
          have hcallfresh := fresh_of_mint hcall htransaction
          have hne : mint.id ≠ original.id := by
            intro heq
            rw [heq, horiginal] at hnew
            cases hnew
          have hput : ∀ {id}, id ≠ original.id → (bank.store.payments.put (givenBack original
              (refundAmount original input))).get id = bank.store.payments.get id := fun hne =>
            Rows.get_put_ne _ (givenBack original (refundAmount original input)) hne
          refine ⟨h.matched.after hcallfresh horder (Keeps.refl rfl) fun id account hget t => ?_,
            fun {id payment} hw => ?_, h.suspended⟩
          · rw [linesUpTo_persist ((hput hne).trans hnew)]
            have hsame : linesUpTo { bank.store with
                payments := bank.store.payments.put (givenBack original (refundAmount original input)) } id t =
                linesUpTo bank.store id t :=
              Rows.total_put_same original horiginal (givenBack_stated _ hin)
            have hstated : InStatement (refundPayment mint original own input r.transaction.id) := by
              simp [InStatement, refundPayment, settledForStatement]
            rw [hsame]
            refine congrArg (_ + ·) (statedBy_eq (-refundAmount original input) h.matched hown hget rfl
              hstated haccepted ?_ ?_ ?_)
            · rw [hposting]
              exact hsettled
            · simp [signedPayment_eq, refundPayment]
            · have hne := ne_of_bank (h.matched.seated hget) hexternal (by decide)
              rw [hposting, netOn_legs, if_neg hne, Int.add_zero]
              rfl
          · obtain ⟨hid, hwaiting⟩ := h.waiting hw
            have hother : payment.id ≠ original.id := fun heq =>
              (hwaiting.twin original (heq ▸ horiginal)).2.2.2.2 hin
            have hrestored : Waiting (call.run bank.ledger).2 { bank.store with
                payments := bank.store.payments.put (givenBack original (refundAmount original input)) }
                payment :=
              (hwaiting.after h.matched.kept hcallfresh).restore (Keeps.refl rfl) fun q hq =>
                (hput hother).symm.trans hq
            exact ⟨hid, hrestored.persist (ne_of_waiting h hsettling hw)⟩

end Refund

section Control

theorem setStatus_reconciled (h : Reconciled bank) (status : AccountStatus) :
    Reconciled (setStatus bank id status) := by
  unfold setStatus
  cases hget : bank.store.accounts.get id with
  | none => exact h
  | some account =>
    have hkeeps : Keeps bank.store { bank.store with
        accounts := bank.store.accounts.put { account with status } } := by
      intro id' account' hin
      have hid : account.id = id := Rows.key_of_get hget
      change (bank.store.accounts.put _).get id' = _ at hin
      rw [Rows.get_put] at hin
      split at hin
      · next heq =>
        obtain rfl := Option.some.inj hin
        exact ⟨account, by rw [heq]; exact hid ▸ hget, rfl⟩
      · exact ⟨account', hin, rfl⟩
    refine ⟨h.matched.restate hkeeps fun _ _ _ _ => rfl, fun {id payment} hw => ?_, hkeeps.none h.suspended⟩
    obtain ⟨hid, hwaiting⟩ := h.waiting hw
    exact ⟨hid, hwaiting.restore hkeeps fun _ hq => hq⟩

theorem forget_reconciled (h : Reconciled bank) (hmatches : Matches bank (.forget id)) :
    Reconciled (forget bank id) := by
  unfold forget
  cases hget : bank.store.payments.get id with
  | none => exact h
  | some payment =>
    have hid : payment.id = id := Rows.key_of_get hget
    refine ⟨h.matched.restate (Keeps.refl rfl) fun id' account hin t => ?_, fun {id' waiting} hw => ?_,
      h.suspended⟩
    · have hzero : statedBy id' t payment = 0 := by
        refine if_neg fun hs => ?_
        have hnone := hmatches payment hget hs.2.1
        rw [hs.1, hin] at hnone
        cases hnone
      have htotal : linesUpTo bank.store id' t = (bank.store.payments.delete payment.id).total
          (statedBy id' t) + statedBy id' t payment := Rows.total_delete (hid ▸ hget)
      rw [hzero, Int.add_zero] at htotal
      exact htotal.symm
    · obtain ⟨hid', hwaiting⟩ := h.waiting hw
      refine ⟨hid', hwaiting.restore (Keeps.refl rfl) fun q hq => ?_⟩
      change (bank.store.payments.delete payment.id).get waiting.id = some q at hq
      rw [Rows.get_delete] at hq
      split at hq
      · cases hq
      · exact hq

theorem matched_empty (hkept : Kept l) : Matched l .empty := by
  have hnone : ∀ {id account}, MockBankStore.empty.accounts.get id ≠ some account := by
    intro id account hget
    cases hget
  exact ⟨hkept, fun hget => absurd hget hnone, fun hget => absurd hget hnone, fun hget => absurd hget hnone⟩

theorem reset_reconciled (h : Reconciled bank) : Reconciled (reset bank) := by
  have hkeeps : Keeps bank.store .empty := by
    intro id account hin
    cases hin
  refine ⟨matched_empty h.matched.kept, fun {id payment} hw => ?_, rfl⟩
  obtain ⟨hid, hwaiting⟩ := h.waiting hw
  refine ⟨hid, hwaiting.restore hkeeps fun q hq => ?_⟩
  cases hq

end Control

section Hold

theorem blockFunds_reconciled {options : BlockOptions} (h : Reconciled bank)
    (hfresh : Statements.Fresh bank (.blockFunds ledgerMint options))
    (hmatches : Matches bank (.blockFunds ledgerMint options)) :
    Reconciled { bank with ledger := (Ledger.run bank.ledger ledgerMint (.blockFunds options)).2 } :=
  run_reconciled h hfresh fun call hcall =>
    ⟨(hmatches call hcall).1, fun account hmem haccepted => (hmatches call hcall).2 haccepted account hmem⟩

theorem voidPixOut_reconciled {options : VoidOptions} (h : Reconciled bank)
    (hfresh : Statements.Fresh bank (.voidPixOut ledgerMint options))
    (hmatches : Matches bank (.voidPixOut ledgerMint options)) :
    Reconciled { bank with ledger := (Ledger.run bank.ledger ledgerMint (.voidPixOut options)).2 } := by
  refine run_reconciled h hfresh fun call hcall => ⟨hmatches call hcall, fun account _ _ => ?_⟩
  obtain rfl := Option.some.inj hcall
  have hphase : resolvePhase false ≠ .POSTED := by decide
  exact if_neg hphase

end Hold

section Send

variable {input : SendPixInput} {nightly : Bool} {own : MockAccount}

theorem assertCanSend_ok (h : assertCanSend config nightly bank input = .ok own) :
    bank.store.accounts.get own.id = some own := by
  obtain ⟨account, haccount, hrest⟩ := bind_eq_ok.mp h
  have hown : account = own := by
    dsimp only at hrest
    generalize (if nightly = true then config.nightlyPixOutLimitCents else config.dailyPixOutLimitCents) =
      limit at hrest
    split at hrest
    · cases hrest
    · split at hrest
      · obtain ⟨available, -, hthrown⟩ := bind_eq_ok.mp hrest
        cases hthrown
      · cases hrest
      · split at hrest
        · cases hrest
        · split at hrest
          · cases hrest
          · exact Except.ok.inj hrest
  rw [← hown]
  exact (getAccount_ok haccount).1

/-- A posting that goes through stands in the ledger with the entries it came with. -/
theorem posted_stands {m : Mint} {posted : PostTransactionInput} {r : PostTransactionResult}
    (hfree : KeyFree l posted.idempotencyKey) (hr : ((EngineCall.post m posted).run l).1 = .ok r) :
    ∃ debits, assertBalanced posted.entries = .ok debits ∧
      (((EngineCall.post m posted).run l).2).transactions.get r.transaction.id =
        some (postedTransaction m posted debits) ∧
      pendingInputs ((EngineCall.post m posted).run l).2 r.transaction.id = posted.entries := by
  have ho := run_outcome l (.post m posted)
  generalize ((EngineCall.post m posted).run l).1 = r', ((EngineCall.post m posted).run l).2 = l' at ho hr
  cases ho with
  | failed => cases hr
  | replayed _ existing hkey =>
    change l.findByIdempotencyKey posted.idempotencyKey = _ at hkey
    rw [hfree] at hkey
    cases hkey
  | posted mint input debits es after hkey hbalanced hbuilt =>
    obtain rfl := Except.ok.inj hr
    refine ⟨debits, hbalanced, ?_, ?_⟩
    · rw [persist_get, if_pos rfl]
    · rw [pendingInputs, persist_entries _ (posted_entries_ne hbalanced hbuilt), if_pos rfl]
      exact buildEntries_inputs _ _ _ _ hbuilt

theorem sumDirection_taken {taken : List LedgerEntryInput} (htaken : ∀ i ∈ taken, i.direction = .CREDIT) :
    sumDirection .DEBIT taken = 0 ∧ sumDirection .CREDIT taken = (taken.map (·.amountCents)).sum := by
  have hdebits : taken.filter (·.direction = .DEBIT) = [] :=
    List.filter_eq_nil_iff.mpr fun i hi => by simp [htaken i hi]
  have hcredits : taken.filter (·.direction = .CREDIT) = taken :=
    List.filter_eq_self.mpr fun i hi => by simp [htaken i hi]
  rw [sumDirection, sumDirection, hdebits, hcredits]
  exact ⟨rfl, rfl⟩

/-- A payment just reserved waits for its settlement. -/
theorem authorized_waiting {options : AuthorizeOptions} {r : PostTransactionResult} {m : Mint}
    (hcall : callOf l m (.authorizePixOut options) = some call) (hfree : KeyFree l options.idempotencyKey)
    (hr : (call.run l).1 = .ok r)
    (hseated : Seated l options.ledgerAccountId (customerAvailableCode payment.accountId))
    (hpending : payment.ledgerPendingTransactionId = some r.transaction.id)
    (hamount : payment.amountCents = options.amountCents) (hfee : payment.feeCents = options.feeCents)
    (hsame : ∀ account, store.accounts.get payment.accountId = some account →
      account.availableLedgerAccountId = options.ledgerAccountId) :
    Reserved (call.run l).2 store payment r.transaction.id options.ledgerAccountId ∧
      0 ≤ payment.feeCents := by
  obtain ⟨taken, htaken, rfl, hsum⟩ := authorizePixOut_spec hcall
  obtain ⟨debits, hasserted, hstored, hinputs⟩ := posted_stands hfree hr
  have hbalanced := assertBalanced_balanced hasserted
  obtain ⟨hdebits, hcredits⟩ := sumDirection_taken fun i hi => (htaken i hi).1
  refine ⟨⟨hpending, Option.isSome_of_eq_some hstored, hseated.run _, ?_, fun i hi => ?_, hsame⟩, ?_⟩
  · have hothers : taken.filter (·.accountId = options.ledgerAccountId) = [] := by
      refine List.filter_eq_nil_iff.mpr fun i hi => ?_
      obtain ⟨-, code, hshort, hstands⟩ := htaken i hi
      simpa using ne_of_bank hseated hstands hshort
    rw [hinputs]
    change List.filter _ (_ :: taken) = _
    rw [List.filter_cons_of_pos (by simp), hothers, hamount, hfee]
  · rw [hinputs] at hi
    obtain rfl | hi := List.mem_cons.mp hi
    · exact .inl rfl
    · obtain ⟨-, code, hshort, hstands⟩ := htaken i hi
      exact .inr ⟨code, hshort, hstands.run _⟩
  · change sumDirection .DEBIT (_ :: taken) = sumDirection .CREDIT (_ :: taken) at hbalanced
    rw [sumDirection_cons, sumDirection_cons, hdebits, hcredits, hsum] at hbalanced
    rw [hfee]
    simp only [if_true, reduceCtorEq, if_false] at hbalanced
    split at hbalanced <;> omega

theorem netUpTo_pending (hphase : call.phase = .PENDING) : netUpTo l call k t = 0 := by
  have hnet : netOn l call k .CREDIT = 0 := if_neg (by rw [hphase]; decide)
  rw [netUpTo, hnet]
  exact ite_self 0

/-- A reserved payment is recorded, but in no statement yet. -/
theorem recorded_reconciled {pending : PostTransactionResult} (h : Reconciled bank)
    (hnew : PaymentFresh bank mint.id) (htransaction : FreshTransaction bank.ledger ledgerMint.transactionId)
    (hfree : KeyFree bank.ledger ("pixout-auth-" ++ mint.id))
    (hown : bank.store.accounts.get own.id = some own)
    (hcall : callOf bank.ledger ledgerMint
      (.authorizePixOut (authorizeOptions config mint own input)) = some call)
    (hr : (call.run bank.ledger).1 = .ok pending) :
    let payment := outgoingPayment config mint own input pending.transaction.id
    Matched (call.run bank.ledger).2 (persist bank.store payment) ∧
      (∀ {id waiting}, bank.settling.get id = some waiting →
        waiting.id = id ∧ Waiting (call.run bank.ledger).2 (persist bank.store payment) waiting) ∧
      Waiting (call.run bank.ledger).2 (persist bank.store payment) payment := by
  obtain ⟨hid, hsettling⟩ := hnew
  have hcallfresh := fresh_of_mint hcall htransaction
  have hphase : call.phase = .PENDING := by
    obtain ⟨taken, -, rfl, -⟩ := authorizePixOut_spec hcall
    rfl
  have hout : ¬ InStatement (outgoingPayment config mint own input pending.transaction.id) := by
    simp [InStatement, outgoingPayment, settledForStatement]
  refine ⟨h.matched.after hcallfresh (fun _ _ _ hsettles => absurd hphase hsettles) (Keeps.refl rfl)
    fun id account hget t => ?_, fun {id waiting} hw => ?_, ?_⟩
  · rw [linesUpTo_persist hid, statedBy_of_not_in hout, netUpTo_pending hphase]
  · obtain ⟨hid, hwaiting⟩ := h.waiting hw
    exact ⟨hid, (hwaiting.after h.matched.kept hcallfresh).persist (ne_of_waiting h hsettling hw)⟩
  · have hsame : ∀ account, bank.store.accounts.get own.id = some account →
        account.availableLedgerAccountId = own.availableLedgerAccountId := by
      intro account hget
      obtain rfl := Option.some.inj (hown.symm.trans hget)
      rfl
    let payment := outgoingPayment config mint own input pending.transaction.id
    have hauthorized : Reserved (call.run bank.ledger).2 (persist bank.store payment) payment
        pending.transaction.id own.availableLedgerAccountId ∧ 0 ≤ payment.feeCents :=
      authorized_waiting hcall hfree hr (h.matched.seated hown) rfl rfl rfl hsame
    obtain ⟨hreserved, hfee⟩ := hauthorized
    refine ⟨⟨_, _, hreserved⟩, rfl, hfee, fun q hq => ?_⟩
    have hself := Rows.get_put_self bank.store.payments payment
    obtain rfl := Option.some.inj (hself.symm.trans hq)
    exact ⟨rfl, rfl, rfl, rfl, hout⟩

theorem sendPix_reconciled (h : Reconciled bank)
    (hfresh : Statements.Fresh bank (.sendPix nightly mint ledgerMint input)) :
    Reconciled (sendPix config nightly mint ledgerMint bank input).2 := by
  obtain ⟨hnew, htransaction, hfree⟩ := hfresh
  unfold sendPix
  cases existingId bank.store input.idempotencyKey with
  | some id => exact h
  | none =>
    dsimp only
    cases hassert : assertCanSend config nightly bank input with
    | error e => exact h
    | ok own =>
      dsimp only
      cases hcall : callOf bank.ledger ledgerMint
          (.authorizePixOut (authorizeOptions config mint own input)) with
      | none =>
        obtain ⟨e, he⟩ := run_refused hcall
        rw [he]
        exact h
      | some call =>
        have hkey : KeyFree bank.ledger call.key := by
          obtain ⟨taken, -, rfl, -⟩ := authorizePixOut_spec hcall
          exact hfree
        obtain ⟨e, he, -⟩ | ⟨pending, hr, hok, -⟩ := run_spec hcall hkey
        · rw [he]
          exact h
        · rw [hr]
          dsimp only
          obtain ⟨hmatched, hwaiting, hself⟩ :=
            recorded_reconciled h hnew htransaction hfree (assertCanSend_ok hassert) hcall hok
          split
          · exact ⟨hmatched, hwaiting, h.suspended⟩
          · refine ⟨hmatched, fun {id waiting} hw => ?_, h.suspended⟩
            rw [Table.get_set] at hw
            split at hw
            · next heq =>
              obtain rfl := Option.some.inj hw
              exact ⟨heq.symm, hself⟩
            · exact hwaiting hw

end Send

section Settle

variable {hold : String} {commitMint externalMint m : Mint} {settledAt : Int} {store' : MockBankStore}

theorem external_matched {options : SettleOptions} (h : Matched l store)
    (hfresh : FreshTransaction l m.transactionId) :
    Matched (Ledger.run l m (.settleExternal options)).2 store := by
  cases hcall : callOf l m (.settleExternal options) with
  | none =>
    obtain ⟨e, he⟩ := run_refused hcall
    rw [he]
    exact h
  | some call =>
    rw [run_eq hcall]
    have huntouched : ∀ id account, store.accounts.get id = some account →
        ∀ i ∈ call.inputs l, i.accountId ≠ account.availableLedgerAccountId := by
      intro id account hget i hi
      obtain ⟨clearing, external, hclearing, hexternal, rfl⟩ := settleExternal_spec hcall
      change i ∈ [_, _] at hi
      simp only [List.mem_cons, List.not_mem_nil, or_false] at hi
      obtain rfl | rfl := hi
      · exact ne_of_bank (h.seated hget) hclearing (by decide)
      · exact ne_of_bank (h.seated hget) hexternal (by decide)
    refine h.after (fresh_of_mint hcall hfresh) (fun account hmem => ?_) (Keeps.refl rfl)
      fun id account hget t => ?_
    · obtain ⟨id, hget⟩ := Table.mem_values.mp hmem
      exact order_untouched (huntouched id account hget)
    · rw [netUpTo, netOn_untouched (huntouched id account hget), ite_self, Int.add_zero]

theorem waiting_called {c : LedgerCall} (h : Waiting l store payment) (hkept : Kept l)
    (hfresh : FreshTransaction l m.transactionId) : Waiting (Ledger.run l m c).2 store payment := by
  cases hcall : callOf l m c with
  | none =>
    obtain ⟨e, he⟩ := run_refused hcall
    rw [he]
    exact h
  | some call =>
    rw [run_eq hcall]
    exact h.after hkept (fresh_of_mint hcall hfresh)

/-- The call with which the hold of a payment is committed. -/
def commitOf (mint : Mint) (payment : MockPayment) (hold : String) : EngineCall :=
  .resolvePending mint hold ⟨"pixout-settle-" ++ payment.id, some .PIX_OUT_SETTLE⟩ true

theorem commit_net (hr : Reserved l store payment hold k) {k' : String}
    (hseat : Seated l k' (customerAvailableCode id)) :
    netOn l (commitOf m payment hold) k' .CREDIT =
      if k = k' then -(payment.amountCents + payment.feeCents) else 0 := by
  change (((pendingInputs l hold).filter (·.accountId = k')).map (signedFor .CREDIT)).sum = _
  by_cases hsame : k = k'
  · subst hsame
    rw [hr.own, if_pos rfl]
    simp [signedFor, raising]
  · have hnone : (pendingInputs l hold).filter (·.accountId = k') = [] := by
      refine List.filter_eq_nil_iff.mpr fun i hi => ?_
      obtain hown | ⟨code, hshort, hstands⟩ := hr.others i hi
      · simpa [hown] using hsame
      · simpa using ne_of_bank hseat hstands hshort
    rw [hnone, if_neg hsame]
    rfl

theorem settled_accounts : (settled store id settledAt).accounts = store.accounts := by
  unfold settled
  split <;> rfl

/-- Once settled, a payment that is still recorded is stated. -/
theorem linesUpTo_settled (h : Waiting l store payment) (hid : payment.id = id) (accountId : String)
    (t : Int) :
    linesUpTo (settled store id settledAt) accountId t = linesUpTo store accountId t +
      if (store.payments.get id).isSome ∧ payment.accountId = accountId ∧ settledAt ≤ t then
        -(payment.amountCents + payment.feeCents)
      else 0 := by
  unfold settled
  cases hget : store.payments.get id with
  | none => simp
  | some recorded =>
    subst hid
    obtain ⟨haccount, hdirection, hamount, hfee, hout⟩ := h.twin recorded hget
    let now : MockPayment := { recorded with status := .SETTLED, settledAt := some settledAt }
    have hin : InStatement now := by simp [InStatement, now, settledForStatement]
    have hkey : store.payments.get now.id = some recorded := by
      have hid : recorded.id = payment.id := Rows.key_of_get hget
      change store.payments.get recorded.id = _
      rw [hid, hget]
    have hsigned : signedPayment now = -(payment.amountCents + payment.feeCents) := by
      have hpositive := h.fee
      rw [signedPayment_eq]
      simp only [now, hdirection, hamount, hfee]
      split <;> omega
    have htotal := Rows.total_put store.payments (statedBy accountId t) now
    rw [hkey, Option.map_some, Option.getD_some, statedBy_of_not_in hout] at htotal
    have hstated : statedBy accountId t now =
        if payment.accountId = accountId ∧ settledAt ≤ t then
          -(payment.amountCents + payment.feeCents) else 0 := by
      have hinstant : now.effectiveAt = settledAt := rfl
      have howner : now.accountId = payment.accountId := haccount
      rw [statedBy, hsigned, howner, hinstant]
      simp only [hin, true_and]
    rw [hstated] at htotal
    simp only [Option.isSome_some, true_and]
    change (store.payments.put now).total (statedBy accountId t) =
      store.payments.total (statedBy accountId t) + _
    omega

/-- The first leg of a settlement moves what is stated of it, or nothing that is. -/
theorem committed_matched (h : Reconciled bank)
    (hget : bank.settling.get id = some payment) (hpending : payment.ledgerPendingTransactionId = some hold)
    (hfresh : (commitOf commitMint payment hold).Fresh bank.ledger)
    (horder : Ordered bank (commitOf commitMint payment hold))
    (haccepted : (commitOf commitMint payment hold).accepted bank.ledger = true)
    (hstore : store' = bank.store ∨ store' = settled bank.store id settledAt)
    (hdated : (bank.store.accounts.get payment.accountId).isSome = true → settledAt = commitMint.now ∧
      (bank.store.payments.get id).isSome = true ∧ store' = settled bank.store id settledAt) :
    Matched ((commitOf commitMint payment hold).run bank.ledger).2 store' := by
  obtain ⟨hid, hwaiting⟩ := h.waiting hget
  obtain ⟨hold', k, hr⟩ := hwaiting.reserved
  obtain rfl := Option.some.inj (hr.pending.symm.trans hpending)
  have hkeeps : Keeps bank.store store' := by
    obtain rfl | rfl := hstore
    · exact Keeps.refl rfl
    · exact Keeps.refl settled_accounts
  refine h.matched.after hfresh horder hkeeps fun id' account hin t => ?_
  have hseat := h.matched.seated hin
  rw [netUpTo, commit_net hr hseat]
  simp only [haccepted, true_and]
  change _ = _ + if commitMint.now ≤ t then _ else _
  by_cases hown : payment.accountId = id'
  · subst hown
    obtain ⟨rfl, hrecorded, rfl⟩ := hdated (Option.isSome_iff_exists.mpr ⟨account, hin⟩)
    rw [linesUpTo_settled hwaiting hid, hr.same account hin]
    simp [hrecorded]
  · have hne : k ≠ account.availableLedgerAccountId := by
      intro hsame
      have hseat' := hseat.stands
      rw [← hsame] at hseat'
      exact hown (availableCode_inj (hr.seated.stands.unique hseat'))
    rw [if_neg hne, ite_self, Int.add_zero]
    obtain rfl | rfl := hstore
    · rfl
    · rw [linesUpTo_settled hwaiting hid, if_neg fun hs => hown hs.2.1, Int.add_zero]

theorem waiting_settled (h : Waiting l store payment) (hne : payment.id ≠ id) :
    Waiting l (settled store id settledAt) payment := by
  refine h.restore (Keeps.refl settled_accounts) fun q hq => ?_
  unfold settled at hq
  split at hq
  · next recorded hget =>
    have hid : recorded.id = id := Rows.key_of_get hget
    change (store.payments.put _).get payment.id = some q at hq
    rw [Rows.get_put, if_neg] at hq
    · exact hq
    · exact fun heq => hne (heq.trans hid)
  · exact hq

theorem waiting_delete {settling : Table String MockPayment} {id' : String}
    (h : ∀ {id payment}, settling.get id = some payment → payment.id = id ∧ Waiting l store payment)
    (hget : (settling.delete id).get id' = some payment) :
    payment.id = id' ∧ payment.id ≠ id ∧ Waiting l store payment := by
  rw [Table.get_delete] at hget
  split at hget
  · cases hget
  · next hne =>
    obtain ⟨rfl, hwaiting⟩ := h hget
    exact ⟨rfl, hne, hwaiting⟩

theorem settleLater_reconciled (h : Reconciled bank)
    (hfresh : Statements.Fresh bank (.settleLater id commitMint externalMint settledAt))
    (hmatches : Matches bank (.settleLater id commitMint externalMint settledAt)) :
    Reconciled (settleLater bank id commitMint externalMint settledAt) := by
  unfold settleLater
  cases hget : bank.settling.get id with
  | none => exact h
  | some payment =>
    obtain ⟨htransaction, hfree, hexternal⟩ := hfresh payment hget
    obtain ⟨hold, k, hr⟩ := (h.waiting hget).2.reserved
    have hcall : callOf bank.ledger commitMint (.settlePixOut (settleOptions payment)) =
        some (commitOf commitMint payment hold) := by
      change some (commitOf commitMint payment (payment.ledgerPendingTransactionId.getD "")) = _
      rw [hr.pending]
      rfl
    have hcommitting : committing bank id commitMint = some (payment, commitOf commitMint payment hold) := by
      simp only [committing, hget, Option.bind_eq_bind, Option.bind_some, hcall]
      rfl
    obtain ⟨horder, hdated⟩ := hmatches _ hcommitting
    have hcallfresh := fresh_of_mint hcall htransaction
    dsimp only
    obtain ⟨e, he, -⟩ | ⟨r, hrun, -, haccepted⟩ := run_spec hcall hfree
    · rw [he]
      refine ⟨h.matched, fun {id' waiting} hw => ?_, h.suspended⟩
      obtain ⟨hid, -, hwaiting⟩ := waiting_delete h.waiting hw
      exact ⟨hid, hwaiting⟩
    · rw [hrun] at hexternal ⊢
      dsimp only at hexternal ⊢
      have hkept := call_kept h.matched.kept hcallfresh
      have hsettles := hdated haccepted
      rw [settles, hrun] at hsettles
      dsimp only at hsettles
      have hlater : ∀ {id' waiting}, (bank.settling.delete id).get id' = some waiting →
          waiting.id = id' ∧ waiting.id ≠ id ∧ Waiting (Ledger.run ((commitOf commitMint payment
            hold).run bank.ledger).2 externalMint (.settleExternal (settleOptions payment))).2 bank.store
              waiting := by
        intro id' waiting hw
        obtain ⟨hid, hne, hwaiting⟩ := waiting_delete h.waiting hw
        exact ⟨hid, hne, waiting_called (hwaiting.after h.matched.kept hcallfresh) hkept hexternal⟩
      have hmatched : ∀ store', (store' = bank.store ∨ store' = settled bank.store id settledAt) →
          ((bank.store.accounts.get payment.accountId).isSome = true →
            store' = settled bank.store id settledAt) →
          Matched (Ledger.run ((commitOf commitMint payment hold).run bank.ledger).2 externalMint
            (.settleExternal (settleOptions payment))).2 store' := by
        intro store' hstore hown
        refine external_matched (committed_matched h hget hr.pending hcallfresh horder haccepted hstore
          fun hsome => ?_) hexternal
        exact ⟨(hsettles hsome).1, (hsettles hsome).2.1, hown hsome⟩
      generalize Ledger.run _ externalMint _ = outcome at hsettles hlater hmatched ⊢
      obtain ⟨result, ledger⟩ := outcome
      cases result with
      | error e =>
        refine ⟨hmatched bank.store (.inl rfl) fun hsome => ?_, fun {id' waiting} hw => ?_, h.suspended⟩
        · exact absurd (hsettles hsome).2.2 (by simp [Except.isOk, Except.toBool])
        · exact ⟨(hlater hw).1, (hlater hw).2.2⟩
      | ok r =>
        refine ⟨hmatched _ (.inr rfl) fun _ => rfl, fun {id' waiting} hw => ?_, ?_⟩
        · obtain ⟨hid, hne, hwaiting⟩ := hlater hw
          exact ⟨hid, waiting_settled hwaiting hne⟩
        · exact Keeps.none (Keeps.refl settled_accounts) h.suspended

end Settle

theorem perform_reconciled {step : BankStep} (h : Reconciled bank) (hfresh : Statements.Fresh bank step)
    (hmatches : Matches bank step) : Reconciled (perform config bank step) := by
  cases step with
  | create id availableId blockedId => exact create_reconciled h hfresh
  | setStatus id status => exact setStatus_reconciled h status
  | sendPix nightly mint ledgerMint input => exact sendPix_reconciled h hfresh
  | settleLater id commitMint externalMint settledAt => exact settleLater_reconciled h hfresh hmatches
  | receivePix mint ledgerMint input => exact receivePix_reconciled h hfresh hmatches
  | refund now mint ledgerMint input => exact refund_reconciled h hfresh hmatches
  | blockFunds ledgerMint options => exact blockFunds_reconciled h hfresh hmatches
  | voidPixOut ledgerMint options => exact voidPixOut_reconciled h hfresh hmatches
  | forget transactionId => exact forget_reconciled h hmatches
  | reset => exact reset_reconciled h

/-- The bank before its first account. -/
def start (newId : Nat → String) : BankState := ⟨newStore newId, .empty, .empty⟩

theorem start_ledger (newId : Nat → String) : (start newId).ledger = newStore newId := by
  dsimp only [start]

theorem start_reconciled {newId : Nat → String}
    (hids : ((List.range singletonAccounts.length).map newId).Nodup) : Reconciled (start newId) := by
  have hkept : Kept (start newId).ledger := by
    rw [start_ledger]
    exact newStore_kept hids
  refine ⟨matched_empty hkept, fun {id payment} hget => ?_, rfl⟩
  cases hget

/-- Throughout a run of the bank whose steps date, move and state alike, the lines of
every account in every window explain its balance. -/
theorem statement_explains_balance (localeCompare : String → String → Int) (config : MockBankConfig)
    (newId : Nat → String) (hids : ((List.range singletonAccounts.length).map newId).Nodup)
    (steps : List BankStep) (hfresh : Each (perform config) (start newId) Statements.Fresh steps)
    (hmatches : Each (perform config) (start newId) Matches steps) :
    Throughout (perform config) (start newId) (Explained localeCompare) steps := by
  have hreconciled : Throughout (perform config) (start newId) Reconciled steps :=
    throughout_of_kept (fun _ _ h hstep => perform_reconciled h hstep.1 hstep.2) (start_reconciled hids)
      (hfresh.and hmatches)
  exact hreconciled.imp fun bank h => h.matched.explained localeCompare

def sampleConfig : MockBankConfig := ⟨5, 100000, 500000⟩

/-- An account that receives 1000 at the instant 1. -/
def fundedSteps : List BankStep :=
  [.create "acc" "c0" "c1", .setStatus "acc" .ACTIVE,
    .receivePix ⟨"p0", "E0", 1, 1⟩ (mintAt "t0" 1) ⟨some "acc", none, 1000, none⟩]

/-- The account sends 400, which is settled later, and gives 100 back. -/
def orderlySteps : List BankStep :=
  fundedSteps ++
    ([.sendPix false ⟨"p1", "E1", 2, 2⟩ (mintAt "t1" 2) ⟨"acc", 400, some "k1", none⟩,
      .settleLater "p1" (mintAt "t2" 3) (mintAt "t3" 3) 3,
      .refund 4 ⟨"p2", "D2", 4, 4⟩ (mintAt "t4" 4) ⟨"acc", "E0", some 100, none⟩] : List BankStep)

def byId (a b : String) : Int := if a ≤ b then 0 else 1

theorem statement_explains_balance_orderly :
    ((statementLines byId (orderlySteps.foldl (perform sampleConfig) (start sampleId)).store "acc" 1 4).map
      signedCents) = [1000, -400, -5, -100] ∧
    Throughout (perform sampleConfig) (start sampleId) (Explained byId) orderlySteps :=
  ⟨by decide, statement_explains_balance byId sampleConfig sampleId (by decide) orderlySteps
    (by decide) (by decide)⟩

/-- What the lines of a window add up to, and the change of the balance in it. -/
def windowSums (bank : BankState) (account : MockAccount) (first finish : Int) : Int × Int :=
  (((statementLines byId bank.store account.id first finish).map signedCents).sum,
    balanceAsOf bank.ledger account.availableLedgerAccountId finish -
      balanceAsOf bank.ledger account.availableLedgerAccountId (first - 1))

/-- Funds that are blocked leave the balance without a line, and a refund in the
millisecond of its payment has a line that the balance does not show. -/
theorem blocked_or_same_instant_unexplained :
    let blocked := fundedSteps ++ [.blockFunds (mintAt "t1" 2) ⟨"c0", "c1", 300, "block", false⟩]
    let refunded := fundedSteps ++
      [.refund 1 ⟨"p1", "D1", 1, 1⟩ (mintAt "t1" 1) ⟨"acc", "E0", some 300, none⟩]
    let run := fun steps => steps.foldl (perform sampleConfig) (start sampleId)
    (Each (perform sampleConfig) (start sampleId) Statements.Fresh blocked ∧
      ∃ account ∈ (run blocked).store.accounts.table.values,
        windowSums (run blocked) account 2 2 = (0, -300)) ∧
    Each (perform sampleConfig) (start sampleId) Statements.Fresh refunded ∧
      ∃ account ∈ (run refunded).store.accounts.table.values,
        windowSums (run refunded) account 1 1 = (700, 1000) := by
  decide

end BaasConnector.MockBank.StatementRuns
