import BaasConnector.Ledger.Receipts
import BaasConnector.Webhooks.Matching

namespace BaasConnector.Webhooks.Credits

open BaasConnector.Lib.Effects BaasConnector.Lib.Keyed BaasConnector.Taxonomy.Status
open BaasConnector.Taxonomy.Errors BaasConnector.Ledger.Types BaasConnector.Ledger.Engine
open BaasConnector.Ledger.MemoryStore BaasConnector.Ledger.Outcomes BaasConnector.Ledger.Shadow
open BaasConnector.Ledger.Holds BaasConnector.Ledger.Receipts BaasConnector.Connector.Records
open BaasConnector.Connector.Calls BaasConnector.Connector.Database BaasConnector.Connector.Replies
open BaasConnector.Connector.Calm BaasConnector.Pix.HoldResolution BaasConnector.Webhooks.Apply
open BaasConnector.Webhooks.Matching

/-- The ledger account that the account of an id holds its balance on. -/
def availableOf (w : World) (accountId : String) : Option String :=
  (w.accounts.get accountId).bind (·.ledgerAvailableAccountId)

def settledOn (w : World) (ledgerAccountId : String) (t : TransactionRecord) : Int :=
  if t.direction = .CREDIT ∧ t.status = .SETTLED ∧ availableOf w t.accountId = some ledgerAccountId then
    t.amountCents
  else 0

/-- What the settled inbound payments of the holder of a ledger account add up to. -/
def settledCredit (w : World) (ledgerAccountId : String) : Int :=
  w.transactions.total (settledOn w ledgerAccountId)

/-- The receipt that the ledger holds for an inbound payment. -/
def Booked (s : LedgerStore) (t : TransactionRecord) : Prop :=
  ∃ id r, t.ledgerPostedTransactionId = some id ∧ s.transactions.get id = some r ∧
    r.type = .PIX_IN_RECEIVE ∧ r.status = .POSTED ∧ r.amountCents = t.amountCents

/-- The settled inbound payments and the receipts of the ledger match one to
one, and add up to the same for every account. -/
structure Balanced (w : World) : Prop where
  minted : ∀ id t, w.transactions.get id = some t → id ∈ w.minted
  settled : ∀ id t, w.transactions.get id = some t → t.direction = .CREDIT → t.status = .SETTLED
  single : ∀ id id' t t', w.transactions.get id = some t → w.transactions.get id' = some t' →
    t.direction = .CREDIT → t'.direction = .CREDIT → t.provider = t'.provider →
    t.providerTransactionId = t'.providerTransactionId → id = id'
  booked : ∀ id t, w.transactions.get id = some t → t.direction = .CREDIT → Booked w.ledger t
  earned : ∀ id r, w.ledger.transactions.get id = some r → r.type = .PIX_IN_RECEIVE →
    ∃! k, ∃ t, w.transactions.get k = some t ∧ t.direction = .CREDIT ∧
      t.ledgerPostedTransactionId = some id
  equal : ∀ ledgerAccountId, receivedCredit w.ledger ledgerAccountId = settledCredit w ledgerAccountId

/-- Inbound payments stay as they are stored. -/
def Kept (w w' : World) : Prop :=
  ∀ id t, w.transactions.get id = some t → t.direction = .CREDIT → w'.transactions.get id = some t

variable {w w' : World} {kind : Choice → Prop} {q : Call} {r : Except Thrown (Answer q)}

theorem Kept.refl (w : World) : Kept w w := fun _ _ h _ => h

theorem Kept.trans {v : World} (h : Kept w v) (h' : Kept v w') : Kept w w' :=
  fun id t ht hd => h' id t (h id t ht hd) hd

theorem kept_of_eq (h : w'.transactions = w.transactions) : Kept w w' :=
  fun _ _ ht _ => h ▸ ht

theorem settledCredit_congr (htx : w'.transactions = w.transactions)
    (hav : ∀ accountId, availableOf w' accountId = availableOf w accountId) (ledgerAccountId : String) :
    settledCredit w' ledgerAccountId = settledCredit w ledgerAccountId := by
  unfold settledCredit
  rw [htx]
  refine Rows.total_congr fun _ t _ => ?_
  unfold settledOn
  rw [hav]

/-- The status of an account says nothing about its balance. -/
theorem availableOf_env (hq : Call.touchesParties q = false ∨ ∃ c, q = .accountApplyStatusChange c)
    (h : env w q r w') (accountId : String) : availableOf w' accountId = availableOf w accountId := by
  obtain hq | ⟨c, rfl⟩ := hq
  · unfold availableOf
    rw [(env_parties hq h).2]
  obtain ⟨_, _, rfl⟩ | ⟨choice, _, hc⟩ := env_iff.mp h
  · rfl
  unfold respond at hc
  simp only [World.changeAccount] at hc
  cases hb : w.accounts.get c.accountId with
  | none =>
    simp only [hb, reply, Option.some.injEq, Prod.mk.injEq] at hc
    rw [hc.2]
  | some b =>
    have hkey : b.id = c.accountId := Rows.key_of_get hb
    simp only [hb] at hc
    split at hc <;> simp only [reply, Option.some.injEq, Prod.mk.injEq] at hc
    · rw [hc.2]
    · rw [← hc.2]
      have hid : (b.change c).id = c.accountId := hkey
      unfold availableOf
      rw [Rows.get_put, hid]
      by_cases hk : accountId = c.accountId
      · rw [if_pos hk, hk, hb]
        rfl
      · rw [if_neg hk]

/-- A call that touches neither transactions nor the ledger. -/
theorem Balanced.aside (h : Balanced w) (htx : Call.touchesTransactions q = false)
    (hl : Call.touchesLedger q = false)
    (hp : Call.touchesParties q = false ∨ ∃ c, q = .accountApplyStatusChange c) (he : env w q r w') :
    Balanced w' ∧ w'.transactions = w.transactions := by
  have ht : w'.transactions = w.transactions := by
    obtain ⟨_, _, rfl⟩ | ⟨c, _, hc⟩ := env_iff.mp he
    · rfl
    · exact respond_transactions htx hc
  have hledger := env_ledger hl he
  refine ⟨⟨?_, ht ▸ h.settled, ht ▸ h.single, ?_, ?_, fun l => ?_⟩, ht⟩
  · rw [ht]
    exact fun id t hg => env_minted he (h.minted id t hg)
  · rw [ht, hledger]
    exact h.booked
  · rw [ht, hledger]
    exact h.earned
  · rw [hledger, settledCredit_congr ht (availableOf_env hp he)]
    exact h.equal l

/-- A receipt is posted, so no resolution of a hold is about it. -/
theorem Balanced.receipt_posted (h : Balanced w) {id : String} {r : LedgerTransaction}
    (hr : w.ledger.transactions.get id = some r) (ht : r.type = .PIX_IN_RECEIVE) : r.status = .POSTED := by
  obtain ⟨k, ⟨t, hk, hd, hposted⟩, _⟩ := h.earned id r hr ht
  obtain ⟨id', r', hid, hr', _, hs, _⟩ := h.booked k t hk hd
  rw [hposted, Option.some.injEq] at hid
  rw [← hid, hr, Option.some.injEq] at hr'
  exact hr' ▸ hs

/-- The resolution of a hold leaves receipts and payments alone. -/
theorem Balanced.resolve {commit : Bool} {hold key : String}
    {r : Except Thrown PostTransactionResult} (h : Balanced w)
    (he : calm kind w (.ledger (resolveCommand commit hold key)) r w') :
    Balanced w' ∧ w'.transactions = w.transactions := by
  obtain ⟨mint, hfresh, _, rfl⟩ := calm_ledger he
  refine ⟨?_, rfl⟩
  have hreceipts : ∀ id r, r.type = .PIX_IN_RECEIVE →
      (((resolveCommand commit hold key).perform mint w.ledger).2.transactions.get id = some r ↔
        w.ledger.transactions.get id = some r) := by
    intro id r hr
    by_cases hres : Resolvable w.ledger hold key commit
    · obtain ⟨pending, entries, accounts, hp, hst, hrun⟩ := perform_resolve_resolvable mint hres
      rw [hrun]
      dsimp only
      rw [resolved_transactions hp]
      by_cases hh : id = hold
      · rw [if_pos hh, hh, hp]
        refine ⟨fun hs => ?_, fun hs => ?_⟩
        · have htype : pending.type = .PIX_IN_RECEIVE := by
            rw [← hr, ← Option.some.inj hs]
            rfl
          have hposted := h.receipt_posted hp htype
          rw [hst] at hposted
          cases hposted
        · have hposted := h.receipt_posted hp (by rw [Option.some.inj hs]; exact hr)
          rw [hst] at hposted
          cases hposted
      · rw [if_neg hh]
        by_cases hm : id = mint.transactionId
        · rw [if_pos hm, hm, hfresh]
          refine ⟨fun hs => ?_, fun hs => by cases hs⟩
          rw [← Option.some.inj hs] at hr
          cases commit <;> cases hr
        · rw [if_neg hm]
    · rw [perform_resolve_unchanged hres]
  refine ⟨h.minted, h.settled, h.single, fun id t ht hd => ?_, fun id r hr htype => ?_, fun l => ?_⟩
  · obtain ⟨k, receipt, hk, hreceipt, htype, hs⟩ := h.booked id t ht hd
    exact ⟨k, receipt, hk, (hreceipts k receipt htype).mpr hreceipt, htype, hs⟩
  · exact h.earned id r ((hreceipts id r htype).mp hr) htype
  · exact (resolve_receivedCredit hfresh l).trans (h.equal l)

/-- A status change of an outgoing payment. -/
theorem Balanced.change {c : TransactionStatusChange} {t : TransactionRecord} (h : Balanced w)
    (ht : w.transactions.get c.transactionId = some t) (hd : t.direction = .DEBIT) :
    Balanced { w with transactions := w.transactions.put (t.change c) } ∧
      Kept w { w with transactions := w.transactions.put (t.change c) } := by
  have hkey : t.id = c.transactionId := Rows.key_of_get ht
  have hid : (t.change c).id = c.transactionId := hkey
  have hget : ∀ id, (w.transactions.put (t.change c)).get id =
      if id = c.transactionId then some (t.change c) else w.transactions.get id := by
    intro id
    rw [Rows.get_put, hid]
  have hcredit : ∀ id u, u.direction = .CREDIT →
      ((w.transactions.put (t.change c)).get id = some u ↔ w.transactions.get id = some u) := by
    intro id u hu
    rw [hget]
    by_cases hk : id = c.transactionId
    · rw [if_pos hk, hk, ht]
      refine ⟨fun hs => ?_, fun hs => ?_⟩ <;> rw [← Option.some.inj hs] at hu
      · cases hd.symm.trans hu
      · cases hd.symm.trans hu
    · rw [if_neg hk]
  refine ⟨⟨fun id u hu => ?_, fun id u hu hc => ?_, fun id id' u u' hu hu' hc hc' => ?_,
    fun id u hu hc => ?_, fun id r hr htype => ?_, fun l => ?_⟩, fun id u hu hc => (hcredit id u hc).mpr hu⟩
  · rw [hget] at hu
    by_cases hk : id = c.transactionId
    · rw [hk]
      exact h.minted _ t ht
    · rw [if_neg hk] at hu
      exact h.minted id u hu
  · exact h.settled id u ((hcredit id u hc).mp hu) hc
  · exact h.single id id' u u' ((hcredit id u hc).mp hu) ((hcredit id' u' hc').mp hu') hc hc'
  · exact h.booked id u ((hcredit id u hc).mp hu) hc
  · have hsame : ∀ k, (∃ u, (w.transactions.put (t.change c)).get k = some u ∧
        u.direction = .CREDIT ∧ u.ledgerPostedTransactionId = some id) ↔
        ∃ u, w.transactions.get k = some u ∧ u.direction = .CREDIT ∧
          u.ledgerPostedTransactionId = some id :=
      fun k => exists_congr fun u => ⟨fun hu => ⟨(hcredit k u hu.2.1).mp hu.1, hu.2⟩,
        fun hu => ⟨(hcredit k u hu.2.1).mpr hu.1, hu.2⟩⟩
    simp only [hsame]
    exact h.earned id r hr htype
  · have hzero : settledOn w l (t.change c) = settledOn w l t := by
      have hdir : (t.change c).direction = .DEBIT := hd
      unfold settledOn
      rw [if_neg (by simp [hdir]), if_neg (by simp [hd])]
    refine (h.equal l).trans (Rows.total_put_same t ?_ hzero).symm
    rw [hid]
    exact ht

/-- The ledger account that an incoming payment is to be credited on. -/
def creditedAccount (w : World) (ctx : ApplyContext) (data : PaymentEventData) : Option String :=
  if data.direction = some .incoming then
    data.providerAccountId.bind fun pid =>
      (w.accounts.search fun a => a.provider == ctx.provider && a.providerAccountId == some pid).bind
        (·.ledgerAvailableAccountId)
  else none

/-- The row of an inbound payment that has just been credited. -/
theorem Balanced.receive (h : Balanced w) (t : TransactionRecord) (posted : PostTransactionResult)
    (accounts : List LedgerAccount) (availableId : String) (minted : List String)
    (hminted : ∀ id ∈ w.minted, id ∈ minted) (hid : t.id ∈ minted)
    (hnew : w.transactions.get t.id = none)
    (hfresh : w.ledger.transactions.get posted.transaction.id = none)
    (hdirection : t.direction = .CREDIT) (hstatus : t.status = .SETTLED)
    (hlink : t.ledgerPostedTransactionId = some posted.transaction.id)
    (havailable : availableOf w t.accountId = some availableId)
    (hsingle : ∀ k u, w.transactions.get k = some u → u.direction = .CREDIT →
      u.provider = t.provider → u.providerTransactionId ≠ t.providerTransactionId)
    (htype : posted.transaction.type = .PIX_IN_RECEIVE) (hposted : posted.transaction.status = .POSTED)
    (hamount : posted.transaction.amountCents = t.amountCents) (hne : posted.entries ≠ [])
    (hon : ∀ accountId, creditedOn accountId posted.entries =
      if accountId = availableId then t.amountCents else 0) :
    Balanced { w with
      minted
      ledger := w.ledger.persist posted.transaction posted.entries accounts
      transactions := w.transactions.put t } := by
  have hget : ∀ k, (w.transactions.put t).get k =
      if k = t.id then some t else w.transactions.get k := fun k => Rows.get_put _ k t
  have hledger : ∀ k, (w.ledger.persist posted.transaction posted.entries accounts).transactions.get k =
      if k = posted.transaction.id then some posted.transaction else w.ledger.transactions.get k :=
    fun k => Rows.get_put _ k _
  have hown : Booked (w.ledger.persist posted.transaction posted.entries accounts) t :=
    ⟨_, _, hlink, by rw [hledger, if_pos rfl], htype, hposted, hamount⟩
  have hbooked : ∀ u, Booked w.ledger u →
      Booked (w.ledger.persist posted.transaction posted.entries accounts) u := by
    rintro u ⟨k, r, hk, hr, hrest⟩
    refine ⟨k, r, hk, ?_, hrest⟩
    rw [hledger, if_neg, hr]
    rintro rfl
    rw [hfresh] at hr
    cases hr
  refine ⟨fun k u hu => ?_, fun k u hu hc => ?_, fun k k' u u' hu hu' hc hc' hp hi => ?_,
    fun k u hu hc => ?_, fun k r hr hreceipt => ?_, fun l => ?_⟩
  · rw [hget] at hu
    by_cases hk : k = t.id
    · exact hk ▸ hid
    · rw [if_neg hk] at hu
      exact hminted _ (h.minted k u hu)
  · rw [hget] at hu
    by_cases hk : k = t.id
    · rw [if_pos hk, Option.some.injEq] at hu
      exact hu ▸ hstatus
    · rw [if_neg hk] at hu
      exact h.settled k u hu hc
  · rw [hget] at hu hu'
    by_cases hk : k = t.id <;> by_cases hk' : k' = t.id
    · rw [hk, hk']
    · rw [if_pos hk, Option.some.injEq] at hu
      rw [if_neg hk'] at hu'
      subst hu
      exact absurd hi.symm (hsingle k' u' hu' hc' hp.symm)
    · rw [if_neg hk] at hu
      rw [if_pos hk', Option.some.injEq] at hu'
      subst hu'
      exact absurd hi (hsingle k u hu hc hp)
    · rw [if_neg hk] at hu
      rw [if_neg hk'] at hu'
      exact h.single k k' u u' hu hu' hc hc' hp hi
  · rw [hget] at hu
    by_cases hk : k = t.id
    · rw [if_pos hk, Option.some.injEq] at hu
      exact hu ▸ hown
    · rw [if_neg hk] at hu
      exact hbooked u (h.booked k u hu hc)
  · rw [hledger] at hr
    by_cases hk : k = posted.transaction.id
    · refine ⟨t.id, ⟨t, by rw [hget, if_pos rfl], hdirection, by rw [hlink, hk]⟩, ?_⟩
      rintro k' ⟨u, hu, hc, hl⟩
      rw [hget] at hu
      by_cases hk' : k' = t.id
      · exact hk'
      · rw [if_neg hk'] at hu
        obtain ⟨id, r', hid', hr', _⟩ := h.booked k' u hu hc
        rw [hl, Option.some.injEq] at hid'
        rw [← hid', hk, hfresh] at hr'
        cases hr'
    · rw [if_neg hk] at hr
      obtain ⟨k', ⟨u, hu, hc, hl⟩, huniq⟩ := h.earned k r hr hreceipt
      have hk' : k' ≠ t.id := fun he => by rw [he, hnew] at hu; cases hu
      refine ⟨k', ⟨u, by rw [hget, if_neg hk']; exact hu, hc, hl⟩, ?_⟩
      rintro j ⟨v, hv, hcv, hlv⟩
      rw [hget] at hv
      by_cases hj : j = t.id
      · rw [if_pos hj, Option.some.injEq] at hv
        rw [← hv, hlink, Option.some.injEq] at hlv
        exact absurd hlv.symm hk
      · rw [if_neg hj] at hv
        exact huniq j ⟨v, hv, hcv, hlv⟩
  · have hreceived := creditIn_receivedCredit accounts hfresh htype hne hon l
    have hsettled : (w.transactions.put t).total (settledOn w l) =
        w.transactions.total (settledOn w l) + settledOn w l t := Rows.total_put_new hnew
    have hown : settledOn w l t = if l = availableId then t.amountCents else 0 := by
      unfold settledOn
      rw [havailable]
      by_cases hl : l = availableId
      · simp [hdirection, hstatus, hl]
      · have hl' : availableId ≠ l := fun he => hl he.symm
        simp [hl, hl']
    have hequal := h.equal l
    unfold settledCredit at hequal
    refine hreceived.trans ?_
    rw [hequal, ← hown, ← hsettled]
    rfl

end BaasConnector.Webhooks.Credits
