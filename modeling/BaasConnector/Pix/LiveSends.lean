import BaasConnector.Ledger.Placement
import BaasConnector.Lib.Threads
import BaasConnector.Pix.HoldResolution

namespace BaasConnector.Pix.LiveSends

open BaasConnector.Lib.Effects BaasConnector.Lib.Keyed BaasConnector.Taxonomy.Errors
open BaasConnector.Ledger.Types BaasConnector.Ledger.MemoryStore BaasConnector.Ledger.Shadow
open BaasConnector.Ledger.Holds BaasConnector.Ledger.Placement BaasConnector.Connector.Records
      BaasConnector.Connector.Calls
open BaasConnector.Connector.Database BaasConnector.Connector.Replies
open BaasConnector.Pix.HoldResolution BaasConnector.Pix.Transfers

/-- One transfer that is executed, perhaps more than once, under one operation. -/
structure Order where
  connectionId : String
  operationId : String
  account : AccountRecord
  availableId : String
  dto : SendPixDto

variable (o : Order)

def Order.actor : ActorContext := ⟨o.connectionId, some o.operationId⟩

def Order.holdKey : String := "pix-out:" ++ o.operationId

def Order.voidKey : String := "pix-out-void:" ++ o.operationId

/-- The hold of the operation is pending with the full amount reserved. -/
def Order.Held (s : LedgerStore) : Prop := Live s o.holdKey o.availableId o.dto.amountCents

/-- Whether an execution has been granted its hold and has not called the provider yet. -/
inductive Stage
  | unheld | held
deriving DecidableEq, Repr

def Stage.next : Stage → (q : Call) → Except Thrown (Answer q) → Stage
  | _, .ledger (.authorizeOut ..), .ok _ => .held
  | _, .providerSend _, _ => .unheld
  | stage, _, _ => stage

def Stage.guar : Stage → Call → Prop
  | .held, q => ∃ request, q = .providerSend request
  | .unheld, .ledger (.authorizeOut availableId amountCents key _) =>
    availableId = o.availableId ∧ amountCents = o.dto.amountCents ∧ key = o.holdKey
  | .unheld, .ledger (.voidOut _ key) => key = o.voidKey
  | .unheld, .ledger _ | .unheld, .providerSend _ => False
  | .unheld, q => Call.touchesLedger q = false ∧ Call.touchesParties q = false ∨
      ∃ record, q = .operationCreate record

/-- What an execution finds under the account of the order. -/
def Reads : (q : Call) → Except Thrown (Answer q) → Prop
  | .accountFindById id, .ok (some found) => id = o.account.id → found = o.account
  | _, _ => True

def sending : Protocol Call Answer Thrown Stage where
  next := Stage.next
  rely _ := Reads o
  guar := Stage.guar o

variable {o} {α : Type}

/-- The calls that neither move the ledger nor write an account. -/
def Call.plain (q : Call) : Bool := !Call.touchesLedger q && !Call.touchesParties q &&
  match q with
  | .providerSend _ => false
  | _ => true

theorem plain_guar {q : Call} (hq : Call.plain q = true) :
    Stage.guar o .unheld q ∧ ∀ r, Stage.next .unheld q r = .unheld := by
  cases q <;> simp_all [Call.plain, Call.touchesLedger, Call.touchesParties, Stage.guar, Stage.next]

theorem plain_allowed {q : Call} (hq : Call.plain q = true) : (sending o).guar .unheld q :=
  (plain_guar hq).1

theorem unheld_of_plain {p : Flow α} (hp : p.Within fun q => Call.plain q = true) :
    p.Follows (sending o) (fun s _ => s = .unheld) .unheld :=
  Prog.follows_of_within hp (fun _ hq => plain_guar hq) fun _ => rfl

theorem lookupAtProvider_plain (bound : BoundProvider) (providerAccountId operationId : String) :
    (lookupAtProvider bound providerAccountId operationId).Within fun q => Call.plain q = true := by
  unfold lookupAtProvider
  split
  · refine Prog.meets_perform_attempt_bind.mpr ⟨rfl, fun r _ => ?_⟩
    cases r <;> trivial
  · trivial

theorem recordSent_plain (t : Transfer) (sent : PixTransaction) (hold : Option String) :
    (recordSent t sent hold).Within fun q => Call.plain q = true := by
  unfold recordSent
  refine Prog.meets_perform_bind.mpr ⟨rfl, fun now _ => ?_, fun _ _ => trivial⟩
  refine Prog.meets_perform_bind.mpr ⟨rfl, fun id _ => ?_, fun _ _ => trivial⟩
  refine Prog.meets_perform_bind.mpr ⟨rfl, fun stored _ => ?_, fun _ _ => trivial⟩
  exact Prog.meets_perform_bind.mpr ⟨rfl, fun _ _ => trivial, fun _ _ => trivial⟩

theorem onUnknownOutcome_follows (t : Transfer) (hold : String) :
    (onUnknownOutcome t hold).Follows (sending o) (fun _ _ => True) .unheld := by
  unfold onUnknownOutcome
  refine Prog.follows_perform_bind.mpr ⟨plain_allowed rfl, fun now _ => ?_, fun _ _ => trivial⟩
  refine Prog.follows_perform_bind.mpr ⟨plain_allowed rfl, fun id _ => ?_, fun _ _ => trivial⟩
  refine Prog.follows_perform_bind.mpr ⟨plain_allowed rfl, fun stored _ => ?_, fun _ _ => trivial⟩
  refine Prog.follows_perform_bind.mpr ⟨.inr ⟨_, rfl⟩, fun operation _ => ?_, fun _ _ => trivial⟩
  refine Prog.follows_perform_bind.mpr ⟨plain_allowed rfl, fun _ _ => ?_, fun _ _ => trivial⟩
  exact Prog.follows_perform_bind.mpr ⟨plain_allowed rfl, fun _ _ => trivial, fun _ _ => trivial⟩

/-- An execution asks for the hold, and right after it sends. -/
theorem sendHeld_follows {t : Transfer} {providerAccountId : String} (haccount : t.account = o.account)
    (havailable : o.account.ledgerAvailableAccountId = some o.availableId)
    (hdto : t.dto = o.dto) (hoperation : t.operationId = o.operationId) :
    (sendHeld t providerAccountId).Follows (sending o) (fun _ _ => True) .unheld := by
  have hl : requireLedgerAccount t.account = .pure o.availableId := by
    simp [requireLedgerAccount, haccount, havailable]
  unfold sendHeld
  rw [hl, Prog.bind_eq, Prog.pure_bind]
  refine Prog.follows_perform_bind.mpr ⟨⟨rfl, by rw [hdto], by rw [hoperation]; rfl⟩,
    fun hold _ => ?_, fun _ _ => trivial⟩
  refine Prog.follows_perform_attempt_bind.mpr ⟨⟨_, rfl⟩, fun r _ => ?_⟩
  match r with
  | .error (.outcomeUnknown e) => exact onUnknownOutcome_follows t hold.transaction.id
  | .error (.baas _) | .error (.failure _) =>
    have hkey : Stage.guar o .unheld (.ledger (.voidOut hold.transaction.id
        ("pix-out-void:" ++ t.operationId))) := by
      rw [hoperation]
      exact rfl
    refine Prog.follows_perform_bind.mpr ⟨hkey, fun _ _ => ?_, fun _ _ => trivial⟩
    exact Prog.follows_perform_bind.mpr ⟨plain_allowed rfl, fun _ _ => trivial, fun _ _ => trivial⟩
  | .ok sent =>
    refine Prog.follows_bind.mpr (Prog.follows_mono (fun s r hs => ?_)
      (unheld_of_plain (recordSent_plain t sent (some hold.transaction.id))))
    subst hs
    cases r with
    | error e => trivial
    | ok stored =>
      exact Prog.follows_perform_bind.mpr ⟨plain_allowed rfl, fun _ _ => trivial, fun _ _ => trivial⟩

theorem resolveDestination_plain (dto : SendPixDto) :
    (resolveDestination dto).Within fun q => Call.plain q = true := by
  unfold resolveDestination
  cases dto.destinationError <;> trivial

theorem requireAccount_follows :
    (requireAccount o.account.id).Follows (sending o)
      (fun s r => s = .unheld ∧ ∀ found, r = .ok found → found.1 = o.account) .unheld := by
  unfold requireAccount
  refine Prog.follows_perform_bind.mpr ⟨plain_allowed rfl, fun found hfound => ?_, fun e _ => ?_⟩
  · cases found with
    | none => exact ⟨rfl, fun _ h => by cases h⟩
    | some account =>
      have haccount : account = o.account := hfound rfl
      dsimp only
      cases account.providerAccountId with
      | none => exact ⟨rfl, fun _ h => by cases h⟩
      | some providerAccountId => exact ⟨rfl, fun _ h => by cases h; exact haccount⟩
  · exact ⟨rfl, fun _ h => by cases h⟩

theorem send_follows (havailable : o.account.ledgerAvailableAccountId = some o.availableId)
    (reconcileFirst : Bool) :
    (send o.actor o.account.id o.dto reconcileFirst).Follows (sending o) (fun _ _ => True) .unheld := by
  unfold send
  refine Prog.follows_bind.mpr (Prog.follows_mono (fun s r hs => ?_) requireAccount_follows)
  obtain ⟨rfl, hfound⟩ := hs
  cases r with
  | error e => trivial
  | ok found =>
    have haccount := hfound found rfl
    rw [onResult_ok]
    simp only [operationIdOf, Order.actor, Prog.pure_eq, Prog.bind_eq, Prog.pure_bind]
    have hdestination := unheld_of_plain (o := o) (resolveDestination_plain o.dto)
    cases reconcileFirst with
    | false =>
      refine Prog.follows_perform_bind.mpr ⟨plain_allowed rfl, fun bound _ => ?_, fun _ _ => trivial⟩
      refine Prog.follows_bind.mpr (Prog.follows_mono (fun s r hs => ?_) hdestination)
      subst hs
      cases r with
      | error e => trivial
      | ok _ => exact sendHeld_follows haccount havailable rfl rfl
    | true =>
      refine Prog.follows_perform_bind.mpr ⟨plain_allowed rfl, fun already _ => ?_, fun _ _ => trivial⟩
      cases already with
      | some transaction => trivial
      | none =>
        refine Prog.follows_perform_bind.mpr ⟨plain_allowed rfl, fun bound _ => ?_, fun _ _ => trivial⟩
        refine Prog.follows_bind.mpr (Prog.follows_mono (fun s r hs => ?_) hdestination)
        subst hs
        cases r with
        | error e => trivial
        | ok _ =>
          refine Prog.follows_bind.mpr (Prog.follows_mono (fun s r hs => ?_)
            (unheld_of_plain (lookupAtProvider_plain bound found.2 o.operationId)))
          subst hs
          match r with
          | .error e => trivial
          | .ok none => exact sendHeld_follows haccount havailable rfl rfl
          | .ok (some remote) =>
            refine Prog.follows_bind.mpr (Prog.follows_mono (fun s r hs => ?_)
              (unheld_of_plain (recordSent_plain _ remote none)))
            cases r <;> trivial

abbrev Sends := Pool Call Answer Thrown SendOutcome Stage World

/-- Executions of the order: first ones and resumed ones, any number of them,
each of which may be lost at any call. -/
def sends (o : Order) (allowed : Sends → Nat → Prop) :
    System Call Answer Thrown SendOutcome Stage World where
  env := env
  next := Stage.next
  start h p := h = .unheld ∧ ∃ reconcileFirst, p = send o.actor o.account.id o.dto reconcileFirst
  allowed := allowed

/-- An authorization meets no hold that is resolved already, and a void meets
no other execution that has its hold and is about to send. -/
structure Unspoiled (o : Order) (s : Sends) (i : Nat) : Prop where
  authorize : ∀ h availableId amountCents key externalRef k, s.threads i = some
    (h, .call (.ledger (.authorizeOut availableId amountCents key externalRef)) k) →
    Open s.world.ledger o.holdKey
  void : ∀ h hold key k, s.threads i = some (h, .call (.ledger (.voidOut hold key)) k) →
    ∀ j, j ≠ i → s.histories j ≠ some .held

/-- What holds between any two steps of such a run. -/
structure Kept (o : Order) (w : World) (g : Nat → Option Stage) : Prop where
  account : w.accounts.get o.account.id = some o.account
  placed : Placed w.ledger o.holdKey o.availableId o.dto.amountCents
  live : ∀ i, g i = some .held → o.Held w.ledger

variable {w w' : World} {g : Nat → Option Stage}

theorem held_update {i j : Nat} {t : Option Stage} (hj : Function.update g i t j = some .held) :
    j = i ∧ t = some .held ∨ j ≠ i ∧ g j = some .held := by
  by_cases h : j = i
  · subst h
    exact .inl ⟨rfl, by simpa using hj⟩
  · exact .inr ⟨h, by simpa [h] using hj⟩

/-- A step that leaves ledger and accounts alone and grants no hold. -/
theorem Kept.same {i : Nat} {t : Option Stage} (hk : Kept o w g) (hl : w'.ledger = w.ledger)
    (ha : w'.accounts = w.accounts) (ht : t ≠ some .held) : Kept o w' (Function.update g i t) := by
  refine ⟨ha ▸ hk.account, hl ▸ hk.placed, fun j hj => ?_⟩
  obtain ⟨_, h⟩ | ⟨_, h⟩ := held_update hj
  · exact absurd h ht
  · exact hl ▸ hk.live j h

theorem reads_account {q : Call} {r : Except Thrown (Answer q)}
    (ha : w.accounts.get o.account.id = some o.account) (henv : env w q r w') : Reads o q r := by
  cases q with
  | accountFindById id =>
    obtain ⟨_, rfl | ⟨message, rfl⟩⟩ := env_read (fun _ => rfl) henv
    · cases hf : w.accounts.get id with
      | none => trivial
      | some found =>
        rintro rfl
        exact Option.some.inj (hf.symm.trans ha)
    · trivial
  | _ => trivial

theorem env_operationCreate {record : OperationRecord} {r : Except Thrown OperationRecord}
    (henv : env w (.operationCreate record) r w') : w'.accounts = w.accounts := by
  obtain ⟨_, _, rfl⟩ | ⟨c, _, hc⟩ := env_iff.mp henv
  · rfl
  · unfold respond at hc
    simp only [World.createOperation, reply, refuse] at hc
    split at hc <;> simp only [Option.some.injEq, Prod.mk.injEq] at hc <;> rw [← hc.2]

theorem kept_authorize {i : Nat} {externalRef : Option String}
    {r : Except Thrown PostTransactionResult} (hk : Kept o w g) (hopen : Open w.ledger o.holdKey)
    (henv : env w (.ledger (.authorizeOut o.availableId o.dto.amountCents o.holdKey externalRef)) r w') :
    Kept o w' (Function.update g i (some (Stage.next .unheld (.ledger
      (.authorizeOut o.availableId o.dto.amountCents o.holdKey externalRef)) r))) := by
  obtain ⟨⟨message, rfl⟩, rfl⟩ | ⟨mint, _, rfl, rfl⟩ := env_ledger_command.mp henv
  · exact hk.same rfl rfl (by simp [Stage.next])
  · cases hp : (LedgerCommand.authorizeOut o.availableId o.dto.amountCents o.holdKey
        externalRef).perform mint w.ledger with
    | mk a ledger =>
      obtain ⟨rfl, hok⟩ | ⟨_, hlive⟩ := authorizeOut_live hk.placed hopen hp
      · refine ⟨hk.account, hk.placed, fun j hj => ?_⟩
        obtain ⟨_, h⟩ | ⟨_, h⟩ := held_update hj
        · cases a with
          | error e => simp [Stage.next] at h
          | ok a => exact hok a rfl
        · exact hk.live j h
      · exact ⟨hk.account, hlive.placed, fun j _ => hlive⟩

theorem kept_void {i : Nat} {hold : String} {r : Except Thrown PostTransactionResult}
    (hk : Kept o w g) (hnone : ∀ j, j ≠ i → g j ≠ some .held)
    (henv : env w (.ledger (.voidOut hold o.voidKey)) r w') :
    Kept o w' (Function.update g i (some (Stage.next .unheld (.ledger (.voidOut hold o.voidKey)) r))) := by
  have hkeys : o.holdKey ≠ o.voidKey := by
    intro h
    unfold Order.holdKey Order.voidKey at h
    have hlist := congrArg String.toList h
    simp at hlist
  obtain ⟨_, rfl⟩ | ⟨mint, hm, rfl, rfl⟩ := env_ledger_command.mp henv
  · exact hk.same rfl rfl (by simp [Stage.next])
  · refine ⟨hk.account, voidOut_placed hk.placed hkeys hm rfl, fun j hj => ?_⟩
    obtain ⟨_, h⟩ | ⟨hji, h⟩ := held_update hj
    · simp [Stage.next] at h
    · exact absurd h (hnone j hji)

theorem sends_keeps (havailable : o.account.ledgerAvailableAccountId = some o.availableId) :
    (sends o (Unspoiled o)).Keeps (sending o) (Kept o) where
  next := rfl
  start := by
    rintro h p ⟨rfl, reconcileFirst, rfl⟩
    exact send_follows havailable reconcileFirst
  spawn := by
    intro w g i h p hk _ hstart
    exact hk.same rfl rfl (by simp [hstart.1])
  drop := by
    intro w g i hk
    exact hk.same rfl rfl (by simp)
  call := by
    intro s i h q k r w' hk hi hok hguar henv
    refine ⟨reads_account hk.account henv, ?_⟩
    cases h with
    | held =>
      obtain ⟨request, rfl⟩ := hguar
      exact hk.same (env_ledger rfl henv) (env_parties rfl henv).2 (by simp [sending, Stage.next])
    | unheld =>
      by_cases hq : Call.plain q = true
      · have hl : Call.touchesLedger q = false := by simp_all [Call.plain]
        have hp : Call.touchesParties q = false := by simp_all [Call.plain]
        refine hk.same (env_ledger hl henv) (env_parties hp henv).2 ?_
        rw [show (sending o).next .unheld q r = .unheld from (plain_guar (o := o) hq).2 r]
        simp
      cases q with
      | ledger command =>
        cases command with
        | authorizeOut availableId amountCents key externalRef =>
          obtain ⟨rfl, rfl, rfl⟩ := hguar
          exact kept_authorize hk (hok.authorize _ _ _ _ _ k hi) henv
        | voidOut hold key =>
          have hkey : key = o.voidKey := hguar
          subst hkey
          exact kept_void hk (hok.void _ _ _ k hi) henv
        | _ => exact absurd hguar id
      | operationCreate record =>
        exact hk.same (env_ledger rfl henv) (env_operationCreate henv) (by simp [sending, Stage.next])
      | _ => simp_all [Call.plain, sending, Stage.guar, Call.touchesLedger, Call.touchesParties]

/-- In every run whose steps are unspoiled, the provider is asked to send while
the hold of the operation is pending with the full amount. -/
theorem send_with_live_hold (havailable : o.account.ledgerAvailableAccountId = some o.availableId)
    {s₀ s : Sends} (hfree : s₀.threads = fun _ => none)
    (haccount : s₀.world.accounts.get o.account.id = some o.account)
    (hunused : s₀.world.ledger.byIdempotencyKey.get o.holdKey = none)
    (hs : (sends o (Unspoiled o)).Reaches s₀ s) {i : Nat} {h : Stage} {request : SendRequest}
    {k : Except Thrown PixTransaction → Flow SendOutcome}
    (hi : s.threads i = some (h, .call (.providerSend request) k)) : o.Held s.world.ledger := by
  have hobeys : System.Obeys (sending o) s₀ := fun j g p hj => by simp [hfree] at hj
  have hstart : Kept o s₀.world s₀.histories :=
    ⟨haccount, fun id hid => by simp [hunused] at hid, fun j hj => by simp [Pool.histories, hfree] at hj⟩
  obtain ⟨hobeys, hk⟩ := (sends_keeps havailable).reaches hs hobeys hstart
  have hg : Stage.guar o h (.providerSend request) := (hobeys i _ _ hi).1
  cases h with
  | unheld => exact hg.elim
  | held => exact hk.live i (by simp [Pool.histories, hi])

section Sample

def sampleOrder : Order := ⟨"con_1", "opr_1", sampleAccount, "lac_1", ⟨6000, none, none⟩⟩

def fundedPool : Sends := ⟨sampleWorld fundedLedger, fun _ => none⟩

def firstStarted : Sends :=
  ⟨sampleWorld fundedLedger, Function.update fundedPool.threads 0
    (some (.unheld, send sampleOrder.actor "acc_1" sampleOrder.dto false))⟩

/-- The steps of a first execution up to its call of the provider. -/
theorem send_with_live_hold_first : ∃ (s : Sends) (h : Stage) (request : SendRequest)
    (k : Except Thrown PixTransaction → Flow SendOutcome),
    s.threads 0 = some (h, .call (.providerSend request) k) ∧ sampleOrder.Held s.world.ledger := by
  have hread : env (sampleWorld fundedLedger) (.accountFindById "acc_1") (.ok (some sampleAccount))
      (sampleWorld fundedLedger) := env_of_read fun _ => rfl
  have hbound : env (sampleWorld fundedLedger) (.providerRequire "con_1" .pixOutSend)
      (.ok sampleProvider) (sampleWorld fundedLedger) := env_of_read fun _ => rfl
  have hhold : env (sampleWorld fundedLedger) (.ledger (.authorizeOut "lac_1" 6000 "pix-out:opr_1"
      (some "opr_1"))) _ { sampleWorld fundedLedger with ledger := heldLedger } :=
    ⟨{ mint := sampleMint "ltx_1" }, rfl⟩
  have hfree : Open fundedLedger sampleOrder.holdKey := by
    intro id hid
    cases hid
  refine ⟨_, _, _, _, rfl, send_with_live_hold (o := sampleOrder) rfl
    (show fundedPool.threads = fun _ => none from rfl) rfl rfl
    (.head (.spawn 0 rfl ⟨rfl, false, rfl⟩) (.head (.resume 0 rfl ?_ hread)
      (.head (.resume 0 rfl ?_ hbound) (.single (.resume 0 rfl ?_ hhold))))) (i := 0) rfl⟩
  · exact ⟨fun _ _ _ _ _ _ hi => (by cases hi), fun _ _ _ _ hi => (by cases hi)⟩
  · exact ⟨fun _ _ _ _ _ _ hi => (by cases hi), fun _ _ _ _ hi => (by cases hi)⟩
  · exact ⟨fun _ _ _ _ _ _ _ => hfree, fun _ _ _ _ hi => (by cases hi)⟩

def bothStarted : Sends :=
  ⟨sampleWorld fundedLedger, Function.update firstStarted.threads 1
    (some (.unheld, send sampleOrder.actor "acc_1" sampleOrder.dto true))⟩

/-- The provider refuses the first execution, which voids the hold and is lost
before it answers; the resumed one finds no payment and is given the hold again. -/
def resumed : List (Nat × Choice) :=
  [(0, {}), (0, {}), (0, { mint := sampleMint "ltx_1" }),
    (0, { sent := .refused { code := .PROVIDER_UNAVAILABLE, message := "down" } }),
    (0, { mint := sampleMint "ltx_2" }), (1, {}), (1, {}), (1, {}), (1, {}),
    (1, { mint := sampleMint "ltx_3" })]

theorem send_with_voided_hold :
    ¬ ∀ (o : Order) (s₀ s : Sends) (i : Nat) (h : Stage) (request : SendRequest)
      (k : Except Thrown PixTransaction → Flow SendOutcome),
      o.account.ledgerAvailableAccountId = some o.availableId → (s₀.threads = fun _ => none) →
      s₀.world.accounts.get o.account.id = some o.account →
      s₀.world.ledger.byIdempotencyKey.get o.holdKey = none →
      (sends o fun _ _ => True).Reaches s₀ s →
      s.threads i = some (h, .call (.providerSend request) k) → o.Held s.world.ledger := by
  intro hall
  have hstart : (sends sampleOrder fun _ _ => True).Reaches fundedPool bothStarted :=
    .head (.spawn 0 rfl ⟨rfl, false, rfl⟩) (.single (.spawn 1 rfl ⟨rfl, true, rfl⟩))
  have henv : ∀ (c : Choice) (q : Call) (w : World) (r : Except Thrown (Answer q)) (w' : World),
      answer c q w = some (r, w') → env w q r w' := fun c _ _ _ _ hc => ⟨c, hc⟩
  have hscript : ∃ s, bothStarted.script answer Stage.next resumed = some s ∧
      (∃ h request k, s.threads 1 = some (h, .call (.providerSend request) k)) ∧
      s.world.ledger.byIdempotencyKey.get "pix-out:opr_1" = some "ltx_1" ∧
      holdStatus s.world.ledger "ltx_1" = some .VOIDED :=
    ⟨_, rfl, ⟨_, _, _, rfl⟩, by decide, by decide⟩
  obtain ⟨s, hs, ⟨h, request, k, hi⟩, hkey, hvoided⟩ := hscript
  have hrun : (sends sampleOrder fun _ _ => True).Reaches bothStarted s :=
    System.reaches_of_script henv (fun _ _ => trivial) hs
  obtain ⟨id, hid, hpending, _⟩ := hall sampleOrder fundedPool s 1 h request k rfl rfl rfl rfl
    (hstart.trans hrun) hi
  have hsame : some id = some "ltx_1" := hid.symm.trans hkey
  rw [Option.some.inj hsame, hvoided] at hpending
  cases hpending

end Sample

end BaasConnector.Pix.LiveSends
