import BaasConnector.Connector.Replies

namespace BaasConnector.Accounts.Rows

open BaasConnector.Lib.Effects BaasConnector.Lib.Keyed BaasConnector.Taxonomy.Errors
open BaasConnector.Connector.Records BaasConnector.Connector.Calls BaasConnector.Connector.Database
open BaasConnector.Connector.Replies

variable {q : Call} {w w' : World} {r : Except Thrown (Answer q)} {id : String}

/-- The calls that may write an idempotency record. -/
def Call.touchesRecords : Call → Bool
  | .idempotencyClaim _ | .idempotencyStealLease .. | .idempotencyRenewLease .. | .idempotencyComplete _
  | .idempotencyRelease _ => true
  | _ => false

theorem respond_records {c : Choice} (hq : Call.touchesRecords q = false)
    (h : respond c q w = some (r, w')) : w'.idempotency = w.idempotency := by
  have hwrites := respond_writes h
  cases q with
  | idempotencyClaim | idempotencyStealLease | idempotencyRenewLease | idempotencyComplete
  | idempotencyRelease => cases hq
  | _ => exact (congrArg World.idempotency hwrites).trans rfl

theorem env_records (hq : Call.touchesRecords q = false) (h : env w q r w') :
    w'.idempotency = w.idempotency := by
  obtain ⟨_, _, rfl⟩ | ⟨c, _, hc⟩ := env_iff.mp h
  · rfl
  · exact respond_records hq hc

/-- The account's row carries the provider's account. -/
def Linked (w : World) (id : String) : Prop :=
  ∃ a, w.accounts.get id = some a ∧ a.providerAccountId.isSome = true

/-- A row keeps its external id, and the provider's account once it has one. -/
def Grown (a a' : AccountRecord) : Prop :=
  a'.externalId = a.externalId ∧ (a.providerAccountId.isSome = true → a'.providerAccountId.isSome = true)

theorem put_grown {a b : AccountRecord} (hb : w.accounts.get b.id = some b) {b' : AccountRecord}
    (hid : b'.id = b.id) (hgrown : Grown b b') (ha : w.accounts.get id = some a) :
    ∃ a', (w.accounts.put b').get id = some a' ∧ Grown a a' := by
  by_cases hk : id = b'.id
  · refine ⟨b', by rw [Rows.get_put, if_pos hk], ?_⟩
    rw [hk, hid, hb, Option.some.injEq] at ha
    exact ha ▸ hgrown
  · exact ⟨a, by rw [Rows.get_put, if_neg hk]; exact ha, rfl, fun h => h⟩

theorem put_absent {b b' : AccountRecord} (hb : w.accounts.get b.id = some b) (hid : b'.id = b.id)
    (ha : w.accounts.get id = none) : (w.accounts.put b').get id = none := by
  rw [Rows.get_put]
  split
  · next hk =>
    rw [hk, hid, hb] at ha
    cases ha
  · exact ha

theorem updateAccount_cases {f : AccountRecord → AccountRecord} {r : Except Thrown AccountRecord}
    (h : w.updateAccount id f = some (r, w')) :
    ((∃ e, r = .error e) ∧ w'.accounts = w.accounts) ∨
      ∃ b, b.id = id ∧ w.accounts.get b.id = some b ∧ r = .ok (f b) ∧
        w'.accounts = w.accounts.put (f b) := by
  unfold World.updateAccount at h
  cases hb : w.accounts.get id with
  | none =>
    simp only [hb, refuse, Option.some.injEq, Prod.mk.injEq] at h
    exact .inl ⟨⟨_, h.1.symm⟩, by rw [h.2]⟩
  | some b =>
    have hkey : b.id = id := Rows.key_of_get hb
    simp only [hb, reply, Option.some.injEq, Prod.mk.injEq] at h
    exact .inr ⟨b, hkey, hkey ▸ hb, h.1.symm, by rw [← h.2]⟩

/-- Other calls than an insert add no account and grow those that are there. -/
theorem env_account (hq : ∀ record, q ≠ .accountCreate record) (h : env w q r w') :
    (w.accounts.get id = none → w'.accounts.get id = none) ∧
      ∀ a, w.accounts.get id = some a → ∃ a', w'.accounts.get id = some a' ∧ Grown a a' := by
  have hsame : w'.accounts = w.accounts → (w.accounts.get id = none → w'.accounts.get id = none) ∧
      ∀ a, w.accounts.get id = some a → ∃ a', w'.accounts.get id = some a' ∧ Grown a a' :=
    fun he => ⟨fun h => he ▸ h, fun a ha => ⟨a, he ▸ ha, rfl, fun h => h⟩⟩
  have hupdate : ∀ {b : AccountRecord} (b' : AccountRecord), w.accounts.get b.id = some b →
    b'.id = b.id → Grown b b' →
      w'.accounts = w.accounts.put b' → (w.accounts.get id = none → w'.accounts.get id = none) ∧
      ∀ a, w.accounts.get id = some a → ∃ a', w'.accounts.get id = some a' ∧ Grown a a' := by
    intro b b' hb hid hgrown hw
    rw [hw]
    exact ⟨put_absent hb hid, fun a ha => put_grown hb hid hgrown ha⟩
  obtain ⟨_, _, rfl⟩ | ⟨c, _, hc⟩ := env_iff.mp h
  · exact hsame rfl
  cases q with
  | accountCreate record => exact absurd rfl (hq record)
  | accountAttachProviderAccount accountId pid status =>
    obtain ⟨_, hw⟩ | ⟨b, _, hb, _, hw⟩ := updateAccount_cases hc
    · exact hsame hw
    · exact hupdate { b with providerAccountId := some pid, status := status } hb rfl
        ⟨rfl, fun _ => rfl⟩ hw
  | accountAttachLedgerAccounts accountId availableId =>
    obtain ⟨_, hw⟩ | ⟨b, _, hb, _, hw⟩ := updateAccount_cases hc
    · exact hsame hw
    · exact hupdate { b with ledgerAvailableAccountId := some availableId } hb rfl
        ⟨rfl, fun h => h⟩ hw
  | accountApplyStatusChange change =>
    unfold respond at hc
    simp only [World.changeAccount] at hc
    cases hb : w.accounts.get change.accountId with
    | none =>
      simp only [hb, reply, Option.some.injEq, Prod.mk.injEq] at hc
      exact hsame (by rw [hc.2])
    | some b =>
      have hkey : b.id = change.accountId := Rows.key_of_get hb
      simp only [hb] at hc
      split at hc <;> simp only [reply, Option.some.injEq, Prod.mk.injEq] at hc
      · exact hsame (by rw [hc.2])
      · exact hupdate (b := b) (b.change change) (hkey ▸ hb) rfl ⟨rfl, fun h => h⟩ (by rw [← hc.2])
  | operationCreate | operationUpdate =>
    refine hsame ?_
    unfold respond at hc
    simp only [World.createOperation, World.updateOperation, reply, refuse] at hc
    grind
  | _ => exact hsame (respond_parties rfl hc).2

theorem env_accountCreate {record : AccountRecord} {r : Except Thrown AccountRecord}
    (h : env w (.accountCreate record) r w') :
    ((∃ e, r = .error e) ∧ w'.accounts = w.accounts) ∨
      (w.accounts.get record.id = none ∧
        (∀ ext, record.externalId = some ext → ∀ k a, w.accounts.get k = some a → a.externalId ≠ some ext) ∧
        ∃ row, r = .ok row ∧ row.id = record.id ∧ row.externalId = record.externalId ∧
          w'.accounts = w.accounts.put row) := by
  obtain ⟨_, ⟨_, rfl⟩, rfl⟩ | ⟨c, _, hc⟩ := env_iff.mp h
  · exact .inl ⟨⟨_, rfl⟩, rfl⟩
  unfold respond at hc
  simp only [World.createAccount] at hc
  split at hc
  · simp only [refuse, Option.some.injEq, Prod.mk.injEq] at hc
    exact .inl ⟨⟨_, hc.1.symm⟩, by rw [hc.2]⟩
  · next hconf =>
    simp only [Bool.or_eq_true, not_or, Bool.not_eq_true] at hconf
    simp only [reply, Option.some.injEq, Prod.mk.injEq] at hc
    refine .inr ⟨by simpa using hconf.1, fun ext hext k a ha => ?_, _, hc.1.symm, rfl, rfl, by rw [← hc.2]⟩
    have hnone : w.accounts.search (fun a => taken a.externalId record.externalId) = none := by
      simpa using hconf.2
    intro he
    have := Rows.search_eq_none.mp hnone k a ha
    simp [taken, he, hext] at this

/-- A link that is written is there, under the id it was written for. -/
theorem env_attach {pid : String} {status : Taxonomy.Status.AccountStatus} {a : AccountRecord}
    (h : env w (.accountAttachProviderAccount id pid status) (.ok a) w') : a.id = id ∧ Linked w' id := by
  obtain ⟨_, ⟨_, hr⟩, _⟩ | ⟨c, _, hc⟩ := env_iff.mp h
  · cases hr
  obtain ⟨⟨_, hr⟩, _⟩ | ⟨b, hkey, _, hr, hw⟩ := updateAccount_cases hc
  · cases hr
  · cases hr
    refine ⟨hkey, { b with providerAccountId := some pid, status := status }, ?_, rfl⟩
    rw [hw, Rows.get_put, if_pos hkey.symm]

theorem env_attachLedger {availableId : String} {a : AccountRecord}
    (h : env w (.accountAttachLedgerAccounts id availableId) (.ok a) w') : a.id = id := by
  obtain ⟨_, ⟨_, hr⟩, _⟩ | ⟨c, _, hc⟩ := env_iff.mp h
  · cases hr
  obtain ⟨⟨_, hr⟩, _⟩ | ⟨b, hkey, _, hr, _⟩ := updateAccount_cases hc
  · cases hr
  · cases hr
    exact hkey

variable {endpointKey key : String}

/-- A record stands for this key of this endpoint. -/
def Held (endpointKey key : String) (w : World) : Prop :=
  ∃ k record, w.idempotency.get k = some record ∧ record.endpointKey = endpointKey ∧ record.key = key

/-- No record is new or has other keys, and a body is as before or one that is
written now. -/
def Carried (written : ResponseBody → Prop) (w w' : World) : Prop :=
  ∀ k record', w'.idempotency.get k = some record' → ∃ record, w.idempotency.get k = some record ∧
    record'.endpointKey = record.endpointKey ∧ record'.key = record.key ∧
    (record'.responseBody = record.responseBody ∨
      ∃ body, record'.responseBody = some body ∧ written body)

theorem Carried.refl {written : ResponseBody → Prop} (hw : w'.idempotency = w.idempotency) :
    Carried written w w' := fun _ record' h => ⟨record', hw ▸ h, rfl, rfl, .inl rfl⟩

theorem put_carried {written : ResponseBody → Prop} (record record' : IdempotencyRecord)
    (hget : w.idempotency.get record.id = some record) (hid : record'.id = record.id)
    (hendpoint : record'.endpointKey = record.endpointKey) (hkey : record'.key = record.key)
    (hbody : record'.responseBody = record.responseBody ∨
      ∃ body, record'.responseBody = some body ∧ written body)
    (hw : w'.idempotency = w.idempotency.put record') :
    Carried written w w' ∧ (Held endpointKey key w → Held endpointKey key w') := by
  constructor
  · intro k stored hk
    rw [hw, Rows.get_put] at hk
    split at hk
    · next he =>
      cases hk
      exact ⟨record, by rw [he, hid]; exact hget, hendpoint, hkey, hbody⟩
    · exact ⟨stored, hk, rfl, rfl, .inl rfl⟩
  · rintro ⟨k, stored, hk, he, hs⟩
    by_cases hki : k = record'.id
    · rw [hki, hid, hget, Option.some.injEq] at hk
      exact ⟨record'.id, record', by rw [hw, Rows.get_put_self], hendpoint.trans (hk ▸ he),
        hkey.trans (hk ▸ hs)⟩
    · exact ⟨k, stored, by rw [hw, Rows.get_put_ne _ _ hki]; exact hk, he, hs⟩

theorem updateRecord_cases {f : IdempotencyRecord → IdempotencyRecord} {r : Except Thrown Unit}
    (h : w.updateRecord id f = some (r, w')) :
    w'.idempotency = w.idempotency ∨
      ∃ record, w.idempotency.get record.id = some record ∧
        w'.idempotency = w.idempotency.put (f record) := by
  unfold World.updateRecord at h
  cases hb : w.idempotency.get id with
  | none =>
    simp only [hb, refuse, Option.some.injEq, Prod.mk.injEq] at h
    exact .inl (by rw [h.2])
  | some record =>
    have hkey : record.id = id := Rows.key_of_get hb
    simp only [hb, reply, Option.some.injEq, Prod.mk.injEq] at h
    exact .inr ⟨record, hkey ▸ hb, by rw [← h.2]⟩

/-- A record that is renewed, stolen or completed stays under its key. -/
theorem env_renewed {q : Call} {r : Except Thrown (Answer q)} {written : ResponseBody → Prop}
    (hq : (∃ id leaseSeconds, q = .idempotencyRenewLease id leaseSeconds) ∨
      (∃ id leaseSeconds, q = .idempotencyStealLease id leaseSeconds) ∨
      ∃ completion, q = .idempotencyComplete completion ∧ written completion.body)
    (h : env w q r w') :
    Carried written w w' ∧ (Held endpointKey key w → Held endpointKey key w') := by
  obtain ⟨_, _, rfl⟩ | ⟨c, _, hc⟩ := env_iff.mp h
  · exact ⟨.refl rfl, fun h => h⟩
  have hsame : w'.idempotency = w.idempotency →
      Carried written w w' ∧ (Held endpointKey key w → Held endpointKey key w') :=
    fun he => ⟨.refl he, fun ⟨k, record, hk, h⟩ => ⟨k, record, he ▸ hk, h⟩⟩
  obtain ⟨id, leaseSeconds, rfl⟩ | ⟨id, leaseSeconds, rfl⟩ | ⟨completion, rfl, hwritten⟩ := hq
  · obtain hw | ⟨record, hget, hw⟩ := updateRecord_cases hc
    · exact hsame hw
    · exact put_carried record { record with leaseExpiresAt := some (c.instant + leaseSeconds * 1000) }
        hget rfl rfl rfl (.inl rfl) hw
  · unfold respond at hc
    simp only [World.stealLease] at hc
    cases hb : w.idempotency.get id with
    | none =>
      simp only [hb, reply, Option.some.injEq, Prod.mk.injEq] at hc
      exact hsame (by rw [hc.2])
    | some record =>
      have hkey : record.id = id := Rows.key_of_get hb
      simp only [hb] at hc
      split at hc <;> simp only [reply, Option.some.injEq, Prod.mk.injEq] at hc
      · exact put_carried record { record with leaseExpiresAt := some (c.instant + leaseSeconds * 1000) }
          (hkey ▸ hb) rfl rfl rfl (.inl rfl) (by rw [← hc.2])
      · exact hsame (by rw [hc.2])
  · obtain hw | ⟨record, hget, hw⟩ := updateRecord_cases hc
    · exact hsame hw
    · exact put_carried record { record with
          state := completion.state, responseStatus := some completion.status
          responseBody := some completion.body, leaseExpiresAt := none }
        hget rfl rfl rfl (.inr ⟨completion.body, rfl, hwritten⟩) hw

/-- A claim gives the record that stands for the key, or a new one where none stands. -/
theorem env_claim {claim : IdempotencyClaim} {r : Except Thrown ClaimResult}
    (h : env w (.idempotencyClaim claim) r w') :
    (w'.idempotency = w.idempotency ∧ ∀ result, r = .ok result → result.claimed = false ∧
      ∃ k, w.idempotency.get k = some result.record ∧
        result.record.endpointKey = claim.endpointKey ∧ result.record.key = claim.key) ∨
    (¬ Held claim.endpointKey claim.key w ∧ ∃ record : IdempotencyRecord, r = .ok ⟨true, record⟩ ∧
      record.endpointKey = claim.endpointKey ∧ record.key = claim.key ∧ record.responseBody = none ∧
      w'.idempotency = w.idempotency.put record) := by
  obtain ⟨_, ⟨_, rfl⟩, rfl⟩ | ⟨c, _, hc⟩ := env_iff.mp h
  · exact .inl ⟨rfl, fun _ hr => by cases hr⟩
  unfold respond at hc
  simp only [World.claim] at hc
  cases hs : w.idempotency.search fun r => r.endpointKey == claim.endpointKey && r.key == claim.key with
  | some record =>
    obtain ⟨hp, hget⟩ := Rows.search_some hs
    simp only [Bool.and_eq_true, beq_iff_eq] at hp
    simp only [hs, reply, Option.some.injEq, Prod.mk.injEq] at hc
    refine .inl ⟨by rw [hc.2], fun result hr => ?_⟩
    rw [← hc.1] at hr
    cases hr
    exact ⟨rfl, _, hget, hp.1, hp.2⟩
  | none =>
    simp only [hs] at hc
    split at hc
    · cases hc
    · simp only [reply, Option.some.injEq, Prod.mk.injEq] at hc
      refine .inr ⟨?_, _, hc.1.symm, rfl, rfl, rfl, by rw [← hc.2]⟩
      rintro ⟨k, record, hk, he, hkey⟩
      have := Rows.search_eq_none.mp hs k record hk
      simp [he, hkey] at this

/-- A lease that is taken over is that of a stored record. -/
theorem env_stolen {leaseSeconds : Int} {stolen : IdempotencyRecord}
    (h : env w (.idempotencyStealLease id leaseSeconds) (.ok (some stolen)) w') :
    ∃ record, w.idempotency.get id = some record := by
  obtain ⟨_, ⟨_, hr⟩, _⟩ | ⟨c, _, hc⟩ := env_iff.mp h
  · cases hr
  unfold respond at hc
  simp only [World.stealLease] at hc
  cases hb : w.idempotency.get id with
  | none => simp [hb, reply] at hc
  | some record => exact ⟨record, rfl⟩

/-- A release removes records and adds none. -/
theorem env_release {r : Except Thrown Unit} {written : ResponseBody → Prop}
    (h : env w (.idempotencyRelease id) r w') : Carried written w w' := by
  obtain ⟨_, _, rfl⟩ | ⟨c, _, hc⟩ := env_iff.mp h
  · exact .refl rfl
  unfold respond at hc
  simp only [reply, Option.some.injEq, Prod.mk.injEq] at hc
  rw [← hc.2]
  split
  · intro k record' hk
    rw [Rows.get_delete] at hk
    split at hk
    · cases hk
    · exact ⟨record', hk, rfl, rfl, .inl rfl⟩
  · exact .refl rfl

end BaasConnector.Accounts.Rows
