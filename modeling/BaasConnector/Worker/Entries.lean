import BaasConnector.Ledger.Receipts
import BaasConnector.Webhooks.Footprint
import BaasConnector.Worker.Poll

namespace BaasConnector.Worker.Entries

open BaasConnector.Lib.Effects BaasConnector.Lib.Keyed BaasConnector.Taxonomy.Errors
open BaasConnector.Ledger.Types BaasConnector.Ledger.Shadow BaasConnector.Ledger.Holds
open BaasConnector.Ledger.Receipts BaasConnector.Connector.Records BaasConnector.Connector.Calls
open BaasConnector.Connector.Database BaasConnector.Connector.Replies
open BaasConnector.Webhooks.Footprint BaasConnector.Worker.Poll

/-- The account that is polled. -/
structure Polled where
  connectionId : String
  accountId : String
  slug : String
  providerAccountId : String
  availableId : String

/-- The account is open: it has its account at the provider and in the ledger. -/
structure Open (a : Polled) (w : World) : Prop where
  slug : w.provider.slug = a.slug
  row : ∃ record, w.accounts.get a.accountId = some record ∧ record.provider = a.slug ∧
    record.providerAccountId = some a.providerAccountId ∧
    record.ledgerAvailableAccountId = some a.availableId
  single : ∀ id record, w.accounts.get id = some record → record.provider = a.slug →
    record.providerAccountId = some a.providerAccountId → id = a.accountId

/-- The stored transaction is found for the entry, by the provider's id or by
the end-to-end id. -/
def Matches (a : Polled) (entry : StatementEntry) (t : TransactionRecord) : Prop :=
  (t.provider = a.slug ∧ t.providerTransactionId = some entry.reference) ∨
    ∃ e2e, entry.endToEndId = some e2e ∧ t.endToEndId = some e2e

def receiptKey (reference : String) : String := "pix-in:" ++ reference

/-- An inbound payment whose receipt credits the account with the amount of the entry. -/
def CreditedRow (a : Polled) (entry : StatementEntry) (w : World) (t : TransactionRecord) : Prop :=
  t.direction = .CREDIT ∧ ∃ reference, t.providerTransactionId = some reference ∧
    Credited w.ledger (receiptKey reference) a.availableId entry.amountCents

/-- A local transaction exists for the entry, and it has been credited. -/
def Applied (a : Polled) (w : World) (entry : StatementEntry) : Prop :=
  ∃ id t, w.transactions.get id = some t ∧ Matches a entry t ∧ CreditedRow a entry w t

/-- The calls of the connector's code that a poller or an event makes. -/
def Polling (q : Call) : Prop := Applying q ∨ ∃ id, q = .accountFindById id

/-- No inbound payment changes its end-to-end id. -/
def KeepsEndToEnd (w w' : World) : Prop :=
  ∀ id t t' e2e, w.transactions.get id = some t → w'.transactions.get id = some t' →
    t.direction = .CREDIT → t.endToEndId = some e2e → t'.endToEndId = some e2e

variable {a : Polled} {w w' : World} {q : Call} {r : Except Thrown (Answer q)}

theorem env_provider (h : env w q r w') : w'.provider = w.provider := by
  obtain ⟨_, _, rfl⟩ | ⟨c, _, hc⟩ := env_iff.mp h
  · rfl
  have hwrites := respond_writes hc
  cases q <;> exact (congrArg World.provider hwrites).trans rfl

theorem credited_stays {key availableId : String} {amountCents : Int} (hq : Polling q)
    (he : env w q r w') (h : Credited w.ledger key availableId amountCents) :
    Credited w'.ledger key availableId amountCents := by
  by_cases hl : Call.touchesLedger q = false
  · rw [env_ledger hl he]
    exact h
  obtain hq | ⟨id, rfl⟩ := hq
  · cases q with
    | ledger command =>
      obtain ⟨_, rfl⟩ | ⟨mint, hfresh, _, rfl⟩ := env_ledger_command.mp he
      · exact h
      · cases command with
        | settleOut hold key => exact h.resolve true hfresh
        | voidOut hold key => exact h.resolve false hfresh
        | creditIn availableId amountCents key externalRef =>
          exact h.creditIn availableId amountCents key externalRef hfresh
        | authorizeOut => exact hq.elim
        | adjust => exact hq.elim
    | ledgerOpenAccounts => exact hq.elim
    | _ => exact absurd rfl hl
  · exact absurd rfl hl

/-- What has been applied stays applied. -/
theorem applied_stays {entry : StatementEntry} (hq : Polling q) (he : env w q r w')
    (hkeeps : KeepsEndToEnd w w') (h : Applied a w entry) : Applied a w' entry := by
  obtain ⟨id, t, ht, hmatches, hdirection, reference, href, hcredited⟩ := h
  have hstays := credited_stays hq he hcredited
  obtain hsame | ⟨_, _, _, hnone, _⟩ | ⟨c, u, _, _, hu, _, hchange⟩ := env_transactions he id
  · exact ⟨id, t, hsame.trans ht, hmatches, hdirection, reference, href, hstays⟩
  · cases hnone.symm.trans ht
  · rw [ht, Option.some.injEq] at hu
    subst hu
    refine ⟨id, t.change c, hchange, ?_, hdirection, reference, href, hstays⟩
    obtain hown | ⟨e2e, hentry, he2e⟩ := hmatches
    · exact .inl hown
    · exact .inr ⟨e2e, hentry, hkeeps id t _ e2e ht hchange hdirection he2e⟩

theorem open_stays (hq : Polling q) (he : env w q r w') (h : Open a w) : Open a w' := by
  have hsame : w'.accounts = w.accounts → Open a w' := fun hw =>
    ⟨by rw [env_provider he, h.slug], by rw [hw]; exact h.row, by rw [hw]; exact h.single⟩
  by_cases hp : Call.touchesParties q = false
  · exact hsame (env_parties hp he).2
  obtain hq | ⟨id, rfl⟩ := hq
  · cases q with
    | accountApplyStatusChange c =>
      obtain ⟨_, _, rfl⟩ | ⟨choice, _, hc⟩ := env_iff.mp he
      · exact h
      unfold respond at hc
      simp only [World.changeAccount] at hc
      cases hb : w.accounts.get c.accountId with
      | none =>
        simp only [hb, reply, Option.some.injEq, Prod.mk.injEq] at hc
        exact hsame (by rw [hc.2])
      | some b =>
        have hkey : b.id = c.accountId := Rows.key_of_get hb
        simp only [hb] at hc
        split at hc <;> simp only [reply, Option.some.injEq, Prod.mk.injEq] at hc
        · exact hsame (by rw [hc.2])
        · have hid : (b.change c).id = c.accountId := hkey
          have hget : ∀ k, w'.accounts.get k =
              if k = c.accountId then some (b.change c) else w.accounts.get k := by
            intro k
            rw [← hc.2, Rows.get_put, hid]
          obtain ⟨record, hr, hslug, hpid, hl⟩ := h.row
          refine ⟨by rw [env_provider he, h.slug], ?_, fun id other ho hs hpid' => ?_⟩
          · by_cases hk : a.accountId = c.accountId
            · rw [hk, hb, Option.some.injEq] at hr
              subst hr
              exact ⟨b.change c, by rw [hget, if_pos hk], hslug, hpid, hl⟩
            · exact ⟨record, by rw [hget, if_neg hk, hr], hslug, hpid, hl⟩
          · rw [hget] at ho
            by_cases hk : id = c.accountId
            · rw [if_pos hk, Option.some.injEq] at ho
              subst ho
              exact h.single id b (hk ▸ hb) hs hpid'
            · rw [if_neg hk] at ho
              exact h.single id other ho hs hpid'
    | operationCreate | operationUpdate | accountCreate | accountAttachProviderAccount
    | accountAttachLedgerAccounts => exact hq.elim
    | _ => exact absurd rfl hp
  · exact absurd rfl hp

/-- The account of the provider's id is the one that is polled. -/
theorem open_search (h : Open a w) : ∃ record,
    (w.accounts.search fun b => b.provider == a.slug &&
      b.providerAccountId == some a.providerAccountId) = some record ∧
      record.ledgerAvailableAccountId = some a.availableId := by
  obtain ⟨record, hr, hslug, hpid, hl⟩ := h.row
  refine ⟨record, Rows.search_of_unique hr (by simp [hslug, hpid]) fun id other ho hp => ?_, hl⟩
  simp only [Bool.and_eq_true, beq_iff_eq] at hp
  exact h.single id other ho hp.1 hp.2

end BaasConnector.Worker.Entries
