import BaasConnector.Webhooks.Credits
import BaasConnector.Webhooks.Footprint

namespace BaasConnector.Webhooks.Conservation

open BaasConnector.Lib.Effects BaasConnector.Lib.Keyed BaasConnector.Taxonomy.Status
open BaasConnector.Taxonomy.Errors BaasConnector.Ledger.Types BaasConnector.Ledger.Shadow
open BaasConnector.Ledger.MemoryStore BaasConnector.Ledger.Holds BaasConnector.Ledger.Receipts
open BaasConnector.Connector.Records BaasConnector.Connector.Calls BaasConnector.Connector.Database
open BaasConnector.Connector.Replies BaasConnector.Connector.Calm BaasConnector.Pix.HoldResolution
open BaasConnector.Webhooks.Apply
open BaasConnector.Webhooks.Matching BaasConnector.Webhooks.Footprint BaasConnector.Webhooks.Credits

/-- The calls that an event makes about a transaction that is stored. -/
def Settling (existing : TransactionRecord) (incoming : TransactionStatus) (occurredAt : Int)
    (q : Call) : Prop :=
  Call.bookkeeping q = true ∨ (∃ commit hold key, q = .ledger (resolveCommand commit hold key)) ∨
    ∃ c, q = .transactionApplyStatusChange c ∧ c.transactionId = existing.id ∧
      c.toStatus = incoming ∧ c.occurredAt = occurredAt

/-- The stored transaction is an outgoing payment, or the guard turns the event away. -/
def Stands (existing : TransactionRecord) (incoming : TransactionStatus) (occurredAt : Int)
    (w : World) : Prop :=
  Balanced w ∧ ∃ t, w.transactions.get existing.id = some t ∧
    (t.direction = .CREDIT → t.guard incoming occurredAt ≠ none)

/-- The provider's transactions, each with the provider that it belongs to. -/
abbrev Entity := String × String

def Stored (w : World) (e : Entity) : Prop :=
  ∃ id t, w.transactions.get id = some t ∧ t.direction = .CREDIT ∧ t.provider = e.1 ∧
    t.providerTransactionId = some e.2

/-- The event says that money has come in for one of our customers. -/
def Due (w : World) (ctx : ApplyContext) (data : PaymentEventData) : Prop :=
  (creditedAccount w ctx data).isSome = true ∧ 0 < data.amountCents.getD 0

/-- A payment seen for the first time has settled, the ledger can post it, and
no other payment has used up its key. -/
def Payable (w : World) (ctx : ApplyContext) (draft : CanonicalEventDraft) (data : PaymentEventData) :
    Prop :=
  ∀ availableId, creditedAccount w ctx data = some availableId →
    w.ledger.byIdempotencyKey.get ("pix-in:" ++ draft.providerId) = none ∧
      (0 < data.amountCents.getD 0 → data.status.getD .SETTLED = .SETTLED ∧
        Postable w.ledger availableId (data.amountCents.getD 0))

variable {w w' : World} {kind : Choice → Prop} {ctx : ApplyContext} {draft : CanonicalEventDraft}
  {data : PaymentEventData} {incoming : TransactionStatus} {occurredAt : Int}
  {existing : TransactionRecord}

theorem Stored.kept {e : Entity} (h : Stored w e) (hk : Kept w w') : Stored w' e := by
  obtain ⟨id, t, ht, hd, hrest⟩ := h
  exact ⟨id, t, hk id t ht hd, hd, hrest⟩

theorem applyToExisting_settling (ctx : ApplyContext) (draft : CanonicalEventDraft)
    (data : PaymentEventData) (incoming : TransactionStatus) (existing : TransactionRecord) :
    (applyToExisting ctx draft data incoming existing).Within
      (Settling existing incoming (occurredAtOf ctx draft)) := by
  rw [applyToExisting_eq, Prog.Within, Prog.meets_bind]
  have hfinish : ∀ posted, (finish ctx draft data incoming existing posted).Within
      (Settling existing incoming (occurredAtOf ctx draft)) := fun posted =>
    finish_within (fun _ => .inl) ctx draft data incoming existing posted
      (.inr (.inr ⟨_, rfl, rfl, rfl, rfl⟩))
  unfold holdResolution
  cases existing.ledgerPendingTransactionId with
  | none => exact hfinish none
  | some hold =>
    cases resolves incoming with
    | none => exact hfinish none
    | some commit =>
      exact Prog.meets_perform_bind.mpr ⟨.inr (.inl ⟨commit, hold, _, rfl⟩),
        fun resolved _ => hfinish (some resolved.transaction.id), fun _ _ => trivial⟩

theorem settling_step {q : Call} {r : Except Thrown (Answer q)}
    (hq : Settling existing incoming occurredAt q) (he : calm kind w q r w')
    (hs : Stands existing incoming occurredAt w) :
    Stands existing incoming occurredAt w' ∧ Kept w w' := by
  obtain ⟨hb, t, ht, hguard⟩ := hs
  have hsame : Balanced w' ∧ w'.transactions = w.transactions →
      Stands existing incoming occurredAt w' ∧ Kept w w' := fun ⟨hb', htx⟩ =>
    ⟨⟨hb', t, by rw [htx]; exact ht, hguard⟩, kept_of_eq htx⟩
  obtain hq | ⟨commit, hold, key, rfl⟩ | ⟨c, rfl, hid, hto, hat⟩ := hq
  · refine hsame ?_
    cases q <;> first
      | exact hb.aside rfl rfl (.inl rfl) (env_of_calm he)
      | simp [Call.bookkeeping] at hq
  · exact hsame (hb.resolve he)
  · obtain ⟨choice, _, _, hc⟩ := he
    obtain ⟨_, rfl⟩ | ⟨u, hu, hg, _, rfl⟩ := changeTransaction_cases hc
    · exact ⟨⟨hb, t, ht, hguard⟩, Kept.refl _⟩
    · rw [hid, ht, Option.some.injEq] at hu
      subst hu
      rw [hto, hat] at hg
      have hdebit : t.direction = .DEBIT := by
        cases hd : t.direction with
        | DEBIT => rfl
        | CREDIT => exact absurd hg (hguard hd)
      obtain ⟨hb', hk⟩ := hb.change (c := c) (hid ▸ ht) hdebit
      have hkey : t.id = existing.id := Rows.key_of_get ht
      have hid : (t.change c).id = existing.id := hkey
      refine ⟨⟨hb', t.change c, ?_, fun hd => ?_⟩, hk⟩
      · rw [Rows.get_put, if_pos hid.symm]
      · exact absurd (hdebit.symm.trans hd) (by simp)

theorem applyToExisting_balanced (hs : Stands existing incoming (occurredAtOf ctx draft) w) :
    (applyToExisting ctx draft data incoming existing).wp (calm kind)
      (fun _ w' => Balanced w' ∧ Kept w w') w := by
  refine Prog.wp_mono _ (Prog.wp_of_meets (R := fun v v' =>
      Stands existing incoming (occurredAtOf ctx draft) v →
        Stands existing incoming (occurredAtOf ctx draft) v' ∧ Kept v v')
    (fun v hv => ⟨hv, Kept.refl v⟩) (fun h h' hv => ?_)
    (fun hq he => ⟨trivial, fun hv => settling_step hq he hv⟩)
    (applyToExisting_settling ctx draft data incoming existing) w) fun _ _ h => ?_
  · obtain ⟨hu, hk⟩ := h hv
    obtain ⟨hu', hk'⟩ := h' hu
    exact ⟨hu', hk.trans hk'⟩
  · obtain ⟨hu, hk⟩ := h.2 hs
    exact ⟨hu.1, hk⟩

/-- The calls that only an event about an account makes, with the bookkeeping. -/
def Apart (q : Call) : Prop :=
  Call.touchesTransactions q = false ∧ Call.touchesLedger q = false ∧
    (Call.touchesParties q = false ∨ ∃ c, q = .accountApplyStatusChange c)

theorem apart_bookkeeping {q : Call} (hq : Call.bookkeeping q = true) : Apart q := by
  cases q <;> first
    | exact ⟨rfl, rfl, .inl rfl⟩
    | simp [Call.bookkeeping] at hq

theorem applyAccount_balanced (h : Balanced w) (incoming : AccountStatus) :
    (applyAccount ctx draft incoming).wp (calm kind) (fun _ w' => Balanced w' ∧ Kept w w') w := by
  refine Prog.wp_mono _ (Prog.wp_of_meets (R := fun v v' => Balanced v → Balanced v' ∧ Kept v v')
    (fun v hv => ⟨hv, Kept.refl v⟩) (fun h h' hv => ?_) (fun hq he => ⟨trivial, fun hv => ?_⟩)
    (applyAccount_within Apart (fun _ => apart_bookkeeping)
      (fun _ _ => ⟨rfl, rfl, .inl rfl⟩) (fun c => ⟨rfl, rfl, .inr ⟨c, rfl⟩⟩) ctx draft incoming) w)
    fun _ _ hr => hr.2 h
  · obtain ⟨hu, hk⟩ := h hv
    obtain ⟨hu', hk'⟩ := h' hu
    exact ⟨hu', hk.trans hk'⟩
  · obtain ⟨hb, htx⟩ := hv.aside hq.1 hq.2.1 hq.2.2 (env_of_calm he)
    exact ⟨hb, kept_of_eq htx⟩

theorem locate_none (h : locate w ctx draft data = none) :
    (w.transactions.search fun t =>
      t.provider == ctx.provider && t.providerTransactionId == some draft.providerId) = none ∧
    ∀ e2e, data.endToEndId = some e2e →
      (w.transactions.search fun t => t.endToEndId == some e2e) = none := by
  unfold locate at h
  split at h
  · cases h
  · next hs =>
    refine ⟨hs, fun e2e he => ?_⟩
    rwa [he] at h

/-- A payment that matches no row meets none of the unique indexes. -/
theorem no_conflict {v : World} {accountId id posted : String} (htx : v.transactions = w.transactions)
    (hid : w.transactions.get id = none) (h : locate w ctx draft data = none) :
    v.transactionConflict (inboundDraft ctx draft data accountId id posted occurredAt) = false := by
  obtain ⟨hown, he2e⟩ := locate_none h
  have hid' : (inboundDraft ctx draft data accountId id posted occurredAt).id = id := rfl
  unfold World.transactionConflict
  rw [htx, hid', hid, Option.isSome_none, Bool.false_or, Option.isSome_eq_false_iff,
    Option.isNone_iff_eq_none]
  refine Rows.search_eq_none.mpr fun k t ht => ?_
  have ho := Rows.search_eq_none.mp hown k t ht
  have he : taken t.endToEndId data.endToEndId = false := by
    cases hd : data.endToEndId with
    | none => rfl
    | some e2e => exact Rows.search_eq_none.mp (he2e e2e hd) k t ht
  simp only [inboundDraft, taken, Option.isSome_some, Option.isSome_none, Bool.true_and,
    Bool.false_and, Bool.or_false, Bool.or_eq_false_iff] at ho he ⊢
  exact ⟨ho, he⟩

theorem wp_create {α : Type} {v : World} {t : TransactionRecord} {f : TransactionRecord → Flow α}
    {post : Except Thrown α → World → Prop} (hconflict : v.transactionConflict t = false)
    (h : (f (storedTransaction t)).wp (calm kind) post
      { v with transactions := v.transactions.put (storedTransaction t) }) :
    ((ask (.transactionCreate t)).bind f).wp (calm kind) post v := by
  have hcreate : v.createTransaction t = reply (storedTransaction t)
      { v with transactions := v.transactions.put (storedTransaction t) } := by
    simp [World.createTransaction, hconflict]
  exact wp_fixed (fun _ _ => hcreate) h

theorem creditInbound_balanced {account : AccountRecord} {availableId : String} (h : Balanced w)
    (hlocate : locate w ctx draft data = none) (haccount : w.accounts.get account.id = some account)
    (havailable : account.ledgerAvailableAccountId = some availableId)
    (hkey : w.ledger.byIdempotencyKey.get ("pix-in:" ++ draft.providerId) = none)
    (hsettled : 0 < data.amountCents.getD 0 → data.status.getD .SETTLED = .SETTLED ∧
      Postable w.ledger availableId (data.amountCents.getD 0)) :
    (creditInbound ctx draft data account availableId).wp (calm kind)
      (fun _ w' => Balanced w' ∧ Kept w w' ∧
        (0 < data.amountCents.getD 0 → Stored w' (ctx.provider, draft.providerId))) w := by
  unfold creditInbound
  rw [Prog.bind_eq, Prog.wp_bind, Prog.wp_perform]
  intro r v he
  obtain ⟨mint, hfresh, rfl, rfl⟩ := calm_ledger he
  rcases creditIn_outcomes mint availableId (data.amountCents.getD 0)
    (some (data.endToEndId.getD draft.providerId)) hkey with
    ⟨e, herror⟩ | ⟨posted, accounts, hpos, hposted, hid, htype, hstatus, hamount, _, hne, hon⟩
  · rw [herror]
    refine ⟨h, Kept.refl w, fun hpos => ?_⟩
    obtain ⟨posted, hp⟩ := creditIn_accepted mint
      (some (data.endToEndId.getD draft.providerId)) hkey hpos (hsettled hpos).2
    rw [herror] at hp
    cases hp
  rw [hposted, Prog.onOk_ok, Prog.bind_eq, Prog.wp_bind, Prog.wp_perform]
  intro r v he
  obtain ⟨id, rfl, hmint, rfl⟩ := env_newId (env_of_calm he)
  rw [Prog.onOk_ok]
  have hnew : w.transactions.get id = none := by
    cases hg : w.transactions.get id with
    | none => rfl
    | some t => exact absurd (h.minted id t hg) hmint
  refine wp_create (no_conflict rfl hnew hlocate) ?_
  refine wp_fixed (fun _ _ => rfl) (wp_fixed (fun _ _ => rfl) ?_)
  have hstored : ∀ k t, w.transactions.get k = some t → t.direction = .CREDIT →
      t.provider = ctx.provider → t.providerTransactionId ≠ some draft.providerId := by
    intro k t ht _ hp hi
    have hno := Rows.search_eq_none.mp (locate_none hlocate).1 k t ht
    simp [hp, hi] at hno
  refine ⟨?_, fun k t ht _ => ?_, fun _ => ?_⟩
  · refine h.receive (storedTransaction (inboundDraft ctx draft data account.id id
      posted.transaction.id (occurredAtOf ctx draft))) posted accounts availableId (id :: w.minted)
        (fun _ => List.mem_cons_of_mem id)
      List.mem_cons_self hnew (by rw [hid]; exact hfresh) rfl (hsettled hpos).1 rfl ?_ hstored htype
      hstatus hamount hne hon
    change availableOf w account.id = some availableId
    rw [availableOf, haccount]
    exact havailable
  · have hk : k ≠ id := fun he => by rw [he, hnew] at ht; cases ht
    exact (Rows.get_put_ne _ _ hk).trans ht
  · exact ⟨id, _, Rows.get_put_self _ _, rfl, rfl, rfl⟩

theorem receiveInbound_balanced (h : Balanced w) (hlocate : locate w ctx draft data = none)
    (hin : data.direction = some .incoming) (hpay : Payable w ctx draft data) :
    (receiveInbound ctx draft data).wp (calm kind)
      (fun _ w' => Balanced w' ∧ Kept w w' ∧
        (Due w ctx data → Stored w' (ctx.provider, draft.providerId))) w := by
  have hidle : creditedAccount w ctx data = none →
      Balanced w ∧ Kept w w ∧ (Due w ctx data → Stored w (ctx.provider, draft.providerId)) :=
    fun hno => ⟨h, Kept.refl w, fun hdue => by simp [Due, hno] at hdue⟩
  unfold receiveInbound
  cases hpid : data.providerAccountId with
  | none => exact hidle (by simp [creditedAccount, hpid])
  | some providerAccountId =>
    refine wp_fixed (fun _ _ => rfl) ?_
    cases hs : w.accounts.search fun a =>
        a.provider == ctx.provider && a.providerAccountId == some providerAccountId with
    | none => exact hidle (by simp [creditedAccount, hpid, hs])
    | some account =>
      rw [Prog.onOk_ok]
      cases hl : account.ledgerAvailableAccountId with
      | none =>
        simp only [hl]
        exact hidle (by simp [creditedAccount, hpid, hs, hl])
      | some availableId =>
        have hcredited : creditedAccount w ctx data = some availableId := by
          simp [creditedAccount, hin, hpid, hs, hl]
        obtain ⟨hkey, hsettled⟩ := hpay availableId hcredited
        have hcredit : (creditInbound ctx draft data account availableId).wp (calm kind)
            (fun _ w' => Balanced w' ∧ Kept w w' ∧
              (Due w ctx data → Stored w' (ctx.provider, draft.providerId))) w :=
          Prog.wp_mono _ (creditInbound_balanced h hlocate (Rows.search_some hs).2 hl hkey hsettled)
            fun _ _ hr => ⟨hr.1, hr.2.1, fun hdue => hr.2.2 hdue.2⟩
        simp only [hl]
        cases he : data.endToEndId with
        | none => exact hcredit
        | some endToEndId =>
          refine wp_fixed (fun _ _ => rfl) ?_
          rw [(locate_none hlocate).2 endToEndId he]
          exact hcredit

/-- The payments that an event names, if it names one. -/
def named (w : World) (ctx : ApplyContext) (draft : CanonicalEventDraft) : List Entity :=
  match draft.subject with
  | .account _ => []
  | .transaction _ data =>
    if (creditedAccount w ctx data).isSome ∧ 0 < data.amountCents.getD 0 then
      [(ctx.provider, draft.providerId)]
    else []

/-- What has to be true of an event when it is applied. About a payment that is
stored: an inbound one keeps its status, and the row found for money that has
come in is the row of that very payment. -/
def Sound (w : World) (ctx : ApplyContext) (draft : CanonicalEventDraft) : Prop :=
  match draft.subject with
  | .account _ => True
  | .transaction transitionTo data =>
    match locate w ctx draft data with
    | some existing =>
      (existing.direction = .CREDIT →
        existing.guard (data.status.getD transitionTo) (occurredAtOf ctx draft) ≠ none) ∧
      (Due w ctx data → existing.direction = .CREDIT ∧ existing.provider = ctx.provider ∧
        existing.providerTransactionId = some draft.providerId)
    | none => Payable w ctx draft data

theorem applyDraft_balanced (h : Balanced w) (hsound : Sound w ctx draft) :
    (applyDraft ctx draft).wp (calm kind)
      (fun _ w' => Balanced w' ∧ Kept w w' ∧ ∀ e ∈ named w ctx draft, Stored w' e) w := by
  unfold applyDraft named Sound at *
  cases hsubject : draft.subject with
  | account transitionTo =>
    refine Prog.wp_mono _ (applyAccount_balanced h transitionTo) fun _ _ hr => ⟨hr.1, hr.2, ?_⟩
    simp
  | transaction transitionTo data =>
    simp only [hsubject] at hsound
    have hnamed : ∀ {v : World}, (Due w ctx data → Stored v (ctx.provider, draft.providerId)) →
        ∀ e ∈ (if (creditedAccount w ctx data).isSome ∧ 0 < data.amountCents.getD 0 then
          [(ctx.provider, draft.providerId)] else []), Stored v e := by
      intro v hv e he
      split at he
      · next hdue =>
        rw [List.mem_singleton.mp he]
        exact hv hdue
      · cases he
    change ((findTransaction ctx draft data).bind _).wp _ _ _
    rw [Prog.wp_bind]
    refine Prog.wp_mono _ (wp_findTransaction_calm kind) fun r v hr => ?_
    obtain ⟨rfl, rfl⟩ := hr
    rw [Prog.onOk_ok]
    cases hlocate : locate v ctx draft data with
    | some existing =>
      simp only [hlocate] at hsound
      obtain ⟨hguard, hown⟩ := hsound
      have hget := locate_stored hlocate
      refine Prog.wp_mono _ (applyToExisting_balanced ⟨h, existing, hget, hguard⟩) fun _ u hr =>
        ⟨hr.1, hr.2, hnamed fun hdue => ?_⟩
      obtain ⟨hd, hp, hi⟩ := hown hdue
      exact Stored.kept ⟨existing.id, existing, hget, hd, hp, hi⟩ hr.2
    | none =>
      simp only [hlocate] at hsound
      dsimp only
      split
      · next hout =>
        refine ⟨h, Kept.refl v, hnamed fun hdue => ?_⟩
        simp [Due, creditedAccount, hout] at hdue
      · next hin =>
        exact Prog.wp_mono _ (receiveInbound_balanced h hlocate (not_not.mp hin) hsound) fun _ _ hr =>
          ⟨hr.1, hr.2.1, hnamed hr.2.2⟩

/-- The connector, with the inbound payments that events have named so far. -/
structure Feed where
  world : World
  delivered : List Entity

/-- An event is applied, while our own infrastructure does not fail. -/
def Deliver (ctx : ApplyContext) (draft : CanonicalEventDraft) (s s' : Feed) : Prop :=
  ∃ r, (applyDraft ctx draft).Runs (calm fun _ => True) s.world r s'.world ∧
    s'.delivered = named s.world ctx draft ++ s.delivered

/-- One event from any provider. -/
def Step (s s' : Feed) : Prop := ∃ ctx draft, Deliver ctx draft s s'

/-- One event from any provider that is sound when it is applied. -/
def SoundStep (s s' : Feed) : Prop := ∃ ctx draft, Deliver ctx draft s s' ∧ Sound s.world ctx draft

/-- No inbound payment has been seen yet. -/
structure Start (s : Feed) : Prop where
  minted : ∀ id t, s.world.transactions.get id = some t → id ∈ s.world.minted
  noCredit : ∀ id t, s.world.transactions.get id = some t → t.direction ≠ .CREDIT
  noReceipt : ∀ id r, s.world.ledger.transactions.get id = some r → r.type ≠ .PIX_IN_RECEIVE
  delivered : s.delivered = []

/-- Every account has been credited with its settled inbound payments: each of
them once, and nothing else. -/
structure Conserved (s : Feed) : Prop where
  equal : ∀ ledgerAccountId,
    receivedCredit s.world.ledger ledgerAccountId = settledCredit s.world ledgerAccountId
  single : ∀ id id' t t', s.world.transactions.get id = some t →
    s.world.transactions.get id' = some t' → t.direction = .CREDIT → t'.direction = .CREDIT →
    t.provider = t'.provider → t.providerTransactionId = t'.providerTransactionId → id = id'
  booked : ∀ id t, s.world.transactions.get id = some t → t.direction = .CREDIT → t.status = .SETTLED →
    Booked s.world.ledger t
  earned : ∀ id r, s.world.ledger.transactions.get id = some r → r.type = .PIX_IN_RECEIVE →
    ∃! k, ∃ t, s.world.transactions.get k = some t ∧ t.direction = .CREDIT ∧ t.status = .SETTLED ∧
      t.ledgerPostedTransactionId = some id
  stored : ∀ e ∈ s.delivered, ∃ id t, s.world.transactions.get id = some t ∧ t.direction = .CREDIT ∧
    t.status = .SETTLED ∧ t.provider = e.1 ∧ t.providerTransactionId = some e.2

variable {s s' : Feed}

theorem Start.balanced (h : Start s) : Balanced s.world where
  minted := h.minted
  settled id t ht hd := absurd hd (h.noCredit id t ht)
  single id _ t _ ht _ hd := absurd hd (h.noCredit id t ht)
  booked id t ht hd := absurd hd (h.noCredit id t ht)
  earned id r hr htype := absurd htype (h.noReceipt id r hr)
  equal l := by
    have hreceived : receivedCredit s.world.ledger l = 0 :=
      Rows.total_zero fun id r hr => if_neg (h.noReceipt id r hr)
    have hsettled : settledCredit s.world l = 0 :=
      Rows.total_zero fun id t ht => if_neg fun hc => h.noCredit id t ht hc.1
    rw [hreceived, hsettled]

theorem conserved_of_balanced (h : Balanced s.world) (hstored : ∀ e ∈ s.delivered, Stored s.world e) :
    Conserved s where
  equal := h.equal
  single := h.single
  booked id t ht hd _ := h.booked id t ht hd
  earned id r hr htype := by
    have hsame : ∀ k, (∃ t, s.world.transactions.get k = some t ∧ t.direction = .CREDIT ∧
        t.status = .SETTLED ∧ t.ledgerPostedTransactionId = some id) ↔
        ∃ t, s.world.transactions.get k = some t ∧ t.direction = .CREDIT ∧
          t.ledgerPostedTransactionId = some id :=
      fun k => exists_congr fun t => ⟨fun ht => ⟨ht.1, ht.2.1, ht.2.2.2⟩,
        fun ht => ⟨ht.1, ht.2.1, h.settled k t ht.1 ht.2.1, ht.2.2⟩⟩
    simp only [hsame]
    exact h.earned id r hr htype
  stored e he := by
    obtain ⟨id, t, ht, hd, hrest⟩ := hstored e he
    exact ⟨id, t, ht, hd, h.settled id t ht hd, hrest⟩

theorem step_balanced (h : SoundStep s s') (hb : Balanced s.world)
    (hstored : ∀ e ∈ s.delivered, Stored s.world e) :
    Balanced s'.world ∧ ∀ e ∈ s'.delivered, Stored s'.world e := by
  obtain ⟨ctx, draft, ⟨r, hrun, hdelivered⟩, hsound⟩ := h
  obtain ⟨hb', hk, hnamed⟩ := hrun.of_wp (applyDraft_balanced hb hsound)
  refine ⟨hb', fun e he => ?_⟩
  rw [hdelivered] at he
  obtain he | he := List.mem_append.mp he
  · exact hnamed e he
  · exact (hstored e he).kept hk

theorem run_balanced (hs : Relation.ReflTransGen SoundStep s s') (hb : Balanced s.world)
    (hstored : ∀ e ∈ s.delivered, Stored s.world e) :
    Balanced s'.world ∧ ∀ e ∈ s'.delivered, Stored s'.world e := by
  induction hs with
  | refl => exact ⟨hb, hstored⟩
  | tail _ hstep ih => exact step_balanced hstep ih.1 ih.2

/-- After any sequence of events that are sound when they are applied, inbound
credit is conserved. -/
theorem inbound_credit_conserved (hstart : Start s) (hs : Relation.ReflTransGen SoundStep s s') :
    Conserved s' := by
  have hnone : ∀ e ∈ s.delivered, Stored s.world e := by
    rw [hstart.delivered]
    simp
  obtain ⟨hb, hstored⟩ := run_balanced hs hstart.balanced hnone
  exact conserved_of_balanced hb hstored

/-- The external world and one customer, without a movement. -/
def openLedger : LedgerStore :=
  let external : LedgerAccount :=
    { id := "lac_0", code := externalWorldCode, normalBalance := .DEBIT, allowsNegative := true
      debitsPosted := 0, creditsPosted := 0, debitsPending := 0, creditsPending := 0
      entryCount := 0, version := 0 }
  (ensureAccount (LedgerStore.empty.createAccount external)
    (customerAvailableCode "acc_1") "lac_1").2

def openFeed : Feed := ⟨sampleWorld openLedger, []⟩

theorem openFeed_start : Start openFeed where
  minted id t h := by cases h
  noCredit id t h := by cases h
  noReceipt id r h := by cases h
  delivered := rfl

def incomingContext : ApplyContext := ⟨"con_1", "MOCK_BANK", 2000, some "evt_1"⟩

/-- 50.00 that has come in for the customer, in the given status. -/
def incomingDraft (status : TransactionStatus) : CanonicalEventDraft :=
  ⟨"PIX_IN_RECEIVED", "ptx_9",
    .transaction status ⟨some "pac_1", some .incoming, some status, some 5000, some "E9", none⟩,
    some 1900⟩

def incomingScript : List Choice :=
  [{}, {}, {}, {}, { mint := sampleMint "ltx_9" }, { ulid := "9" }, {}, {}, {}]

theorem incoming_credited (status : TransactionStatus) :
    ∃ s', Deliver incomingContext (incomingDraft status) openFeed s' ∧
      receivedCredit s'.world.ledger "lac_1" = 5000 ∧
      settledCredit s'.world "lac_1" = if status = .SETTLED then 5000 else 0 := by
  cases status <;>
    exact ⟨⟨_, _⟩, ⟨_, runs_calm (fun c => { c with fault := none }) (fun _ => ⟨rfl, trivial⟩)
      incomingScript rfl, rfl⟩, by decide, by decide⟩

theorem incoming_sound : Sound openFeed.world incomingContext (incomingDraft .SETTLED) := by
  intro availableId ha
  have hid : creditedAccount openFeed.world incomingContext
      ⟨some "pac_1", some .incoming, some .SETTLED, some 5000, some "E9", none⟩ = some "lac_1" := by
    decide
  rw [hid, Option.some.injEq] at ha
  subst ha
  exact ⟨by decide, fun _ => ⟨rfl, by decide⟩⟩

theorem inbound_credit_conserved_settled :
    ∃ s', Conserved s' ∧ receivedCredit s'.world.ledger "lac_1" = 5000 := by
  obtain ⟨s', hdeliver, hreceived, _⟩ := incoming_credited .SETTLED
  exact ⟨s', inbound_credit_conserved openFeed_start (.single ⟨_, _, hdeliver, incoming_sound⟩),
    hreceived⟩

/-- A payment first seen while it is processed is credited at once. -/
theorem unsettled_payment_credited :
    ¬ ∀ s s' : Feed, Start s → Relation.ReflTransGen Step s s' → Conserved s' := by
  intro h
  obtain ⟨s', hdeliver, hreceived, hsettled⟩ := incoming_credited .PROCESSING
  have hequal := (h openFeed s' openFeed_start (.single ⟨_, _, hdeliver⟩)).equal "lac_1"
  rw [hreceived, hsettled] at hequal
  exact absurd hequal (by decide)

end BaasConnector.Webhooks.Conservation
