import BaasConnector.Accounts.Soundness
import BaasConnector.Pix.HoldResolution

namespace BaasConnector.Accounts.Retries

open BaasConnector.Lib.Effects BaasConnector.Lib.Keyed BaasConnector.Taxonomy.Errors
open BaasConnector.Connector.Records BaasConnector.Connector.Calls BaasConnector.Connector.Database
open BaasConnector.Connector.Replies BaasConnector.Idempotency.Interceptor BaasConnector.Accounts.Create
open BaasConnector.Accounts.Rows BaasConnector.Accounts.Openings BaasConnector.Accounts.Soundness
open BaasConnector.Pix.HoldResolution

abbrev Requests := Pool Call Answer Thrown Response Stage Bank

/-- Tries of one request to open an account, all under one key. -/
def creations (request : IdempotentRequest) (actor : Pix.Transfers.ActorContext)
    (dto : CreateAccountDto) : System Call Answer Thrown Response Stage Bank where
  env := bankEnv
  next := next
  start h p := h = .outside ∧ p = handle request (createHandler actor dto)
  allowed _ _ := True

/-- The key is given free, or its record is taken over by another try. -/
def Reopened (request : IdempotentRequest) (s s' : Requests) : Prop :=
  (Held request.endpointKey request.key s.world.world ∧
    ¬ Held request.endpointKey request.key s'.world.world) ∨
      ∃ i recordId, s.histories i = some (.conflicted recordId) ∧ s'.histories i = some .running

/-- A request without an external id is executed again only when the provider has
opened nothing for it and no other execution may; a lookup by the external id
finds no account that the provider has opened, or is about to, without its link. -/
structure Orderly (request : IdempotentRequest) (dto : CreateAccountDto) (s s' : Requests) : Prop where
  reopened : dto.externalId = none → Reopened request s s' → s.world.openings = [] ∧
    ∀ j h, s.histories j = some h → s'.histories j = some h → ¬ Stage.mayOpen h
  found : ∀ i id, s.histories i = some .running → s'.histories i = some (.named id) →
    Answerable s.world s.histories id

variable {request : IdempotentRequest} {dto : CreateAccountDto} {actor : Pix.Transfers.ActorContext}
  {b b' : Bank} {g : Nat → Option Stage} {i : Nat} {h h' : Stage} {id : String}

/-- Requests that are lost, and new ones, leave what holds of the others. -/
theorem sound_others (hs : Sound request dto b g) (hc : Conflicts request b g) {g' : Nat → Option Stage}
    (hsub : ∀ j h, g' j = some h → h = .outside ∨ g j = some h) :
    Sound request dto b g' ∧ Conflicts request b g' := by
  have hpath : ∀ {j h}, g' j = some h → h ≠ .outside → g j = some h :=
    fun hj hne => (hsub _ _ hj).resolve_left hne
  have hmay : ∀ {j h}, g' j = some h → Stage.mayOpen h → g j = some h :=
    fun hj hm => hpath hj fun he => by rw [he] at hm; exact hm
  have hans : ∀ {id}, Answerable b g id → Answerable b g' id := by
    rintro id (hl | ⟨hrow, hnot, hnone⟩)
    · exact .inl hl
    · exact .inr ⟨hrow, hnot, fun j => ⟨fun hj => (hnone j).1 (hpath hj (by simp)),
        fun hj => (hnone j).2 (hpath hj (by simp))⟩⟩
  refine ⟨⟨fun x hx => hs.rows x (hx.imp_right ?_), hs.unique, hs.small, fun hnone j h hj hm => ?_,
    fun hnone hor => hs.held hnone (hor.imp_right ?_), fun j x hj => hans (hs.named j x (hpath hj (by simp))),
    fun k record x hk he hkey hx => hans (hs.stored k record x hk he hkey hx)⟩,
    fun j x hj => hc j x (hpath hj (by simp))⟩
  · rintro ⟨j, hj | hj⟩
    · exact ⟨j, .inl (hpath hj (by simp))⟩
    · exact ⟨j, .inr (hpath hj (by simp))⟩
  · obtain ⟨hempty, hothers⟩ := hs.pending hnone j h (hmay hj hm) hm
    exact ⟨hempty, fun k h' hk hm' => hothers k h' (hmay hk hm') hm'⟩
  · rintro ⟨j, h, hj, hm⟩
    exact ⟨j, h, hmay hj hm, hm⟩

theorem creations_maintained (hkey : request.key.isEmpty = false) :
    (creations request actor dto).Maintains (opening request dto) Answered (Orderly request dto)
      (fun b g => Sound request dto b g ∧ Conflicts request b g) where
  next := rfl
  start := by
    rintro h p ⟨rfl, rfl⟩
    exact handle_follows hkey
  spawn := by
    rintro s i h p ⟨hs, hc⟩ _ ⟨rfl, rfl⟩
    refine sound_others hs hc fun j h hj => ?_
    exact (update_cases hj).elim (fun hj => .inl hj.2) fun hj => .inr hj.2
  drop := by
    rintro s i ⟨hs, hc⟩ _
    refine sound_others hs hc fun j h hj => .inr ?_
    by_cases hji : j = i
    · subst hji
      rw [Function.update_self] at hj
      cases hj
    · rwa [Function.update_of_ne hji] at hj
  call := by
    rintro s i h q k r b' ⟨hs, hc⟩ hi _ hguar henv hok
    have hg : s.histories i = some h := by simp [Pool.histories, hi]
    have hself : Function.update s.histories i (some (next h q r)) i = some (next h q r) :=
      Function.update_self ..
    refine ⟨rely_of_env henv.1, sound_call hs hc hg hguar henv (fun hnone hre => ?_) fun hrun id hid => ?_⟩
    · have hreopened := hok.reopened hnone
      rw [Reopened, Pool.histories_update] at hreopened
      have hothers := hreopened (hre.imp_right fun hrelease => by
        obtain ⟨recordId, hh, hn⟩ := hrelease
        exact ⟨i, recordId, hh ▸ hg, hn ▸ hself⟩)
      exact ⟨hothers.1, fun j h'' hji hj => hothers.2 j h'' hj
        ((Function.update_of_ne hji _ _).trans hj)⟩
    · have hfound := hok.found i id (hrun ▸ hg)
      rw [Pool.histories_update] at hfound
      exact hfound (hid ▸ hself)

/-- A start without requests, before anything is stored for this one. -/
structure Fresh (request : IdempotentRequest) (dto : CreateAccountDto) (s : Requests) : Prop where
  idle : s.threads = fun _ => none
  openings : s.world.openings = []
  key : ¬ Held request.endpointKey request.key s.world.world
  externalId : ∀ ext, dto.externalId = some ext → ∀ id a, s.world.world.accounts.get id = some a →
    a.externalId ≠ some ext

/-- At most one account is open at the provider, and an account that a response
names is linked if it is open there. -/
def OneAccount (s : Requests) : Prop :=
  s.world.openings.length ≤ 1 ∧ ∀ i h response id, s.threads i = some (h, .pure response) →
    response.body.bind accountOf = some id → id ∈ s.world.openings → Linked s.world.world id

/-- In every run in which the key is reopened, and an account found by its external
id, only where nothing is open or under way, a request opens one account. -/
theorem one_account_per_key {s₀ s : Requests} (hkey : request.key.isEmpty = false)
    (hfresh : Fresh request dto s₀)
    (hs : (creations request actor dto).Under (Orderly request dto) s₀ s) : OneAccount s := by
  have hnone : ∀ j, s₀.histories j = none := fun j => by simp [Pool.histories, hfresh.idle]
  have hends : System.Ends (opening request dto) Answered s₀ := fun j h p hj => by
    simp [hfresh.idle] at hj
  have hsound : Sound request dto s₀.world s₀.histories := by
    refine ⟨fun x hx => ?_, fun ext hext x x' a a' ha _ he _ => ?_, by simp [hfresh.openings],
      fun _ j h hj => ?_, fun _ hor => ?_, fun j x hj => ?_, fun k record x hk he hrk _ => ?_⟩
    · obtain hx | ⟨j, hj⟩ := hx
      · simp [hfresh.openings] at hx
      · simp [hnone] at hj
    · exact absurd he (hfresh.externalId ext hext x a ha)
    · simp [hnone] at hj
    · simp [hfresh.openings, hnone] at hor
    · simp [hnone] at hj
    · exact absurd ⟨k, record, hk, he, hrk⟩ hfresh.key
  have hconf : Conflicts request s₀.world s₀.histories := fun j x hj => by simp [hnone] at hj
  obtain ⟨hends, hsound, _⟩ := (creations_maintained hkey).under hs hends ⟨hsound, hconf⟩
  refine ⟨hsound.small, fun j h response id hj hid hmem => ?_⟩
  have hh : h = .named id := hends j h _ hj response id rfl hid
  obtain hl | ⟨_, hnot, _⟩ := hsound.named j id (by simp [Pool.histories, hj, hh])
  · exact hl
  · exact absurd hmem hnot

section Sample

def sampleRequest : IdempotentRequest := ⟨"POST AccountsController.create", "key-0001", "f1", true, true⟩

def sampleActor : Pix.Transfers.ActorContext := ⟨"con_1", none⟩

/-- A request for a person's account, with or without an external id. -/
def sampleDto (externalId : Option String) : CreateAccountDto := ⟨"tax_1", false, externalId⟩

def idlePool : Requests := ⟨⟨sampleWorld fundedLedger, []⟩, fun _ => none⟩

theorem idlePool_fresh (externalId : Option String) :
    Fresh sampleRequest (sampleDto externalId) idlePool := by
  refine ⟨rfl, rfl, fun hheld => ?_, fun ext _ id a ha => ?_⟩
  · obtain ⟨k, record, hk, _⟩ := hheld
    cases hk
  · have hnone : ∀ v ∈ (sampleWorld fundedLedger).accounts.table.values, v.externalId ≠ some ext := by
      intro v hv
      cases List.mem_singleton.mp hv
      simp [sampleAccount]
    exact Rows.forall_get.mpr hnone id a ha

/-- A provider whose failures have opened nothing. -/
def openedBy : (q : Call) → Except Thrown (Answer q) → List String → List String
  | .providerCreateAccount externalId, .ok _, before => before.insert externalId
  | _, _, before => before

theorem opens_openedBy (q : Call) (r : Except Thrown (Answer q)) (before : List String) :
    opens q r before (openedBy q r before) := by
  cases q with
  | providerCreateAccount externalId =>
    match r with
    | .ok _ => rfl
    | .error (.baas _) => rfl
    | .error (.outcomeUnknown _) => exact .inl rfl
    | .error (.failure _) => exact .inl rfl
  | _ => rfl

def bankAnswer (c : Choice) (q : Call) (b : Bank) : Option (Except Thrown (Answer q) × Bank) :=
  match answer c q b.world with
  | some (r, w) => some (r, ⟨w, openedBy q r b.openings⟩)
  | none => none

theorem bankEnv_of_answer {c : Choice} {q : Call} {r : Except Thrown (Answer q)}
    (h : bankAnswer c q b = some (r, b')) : bankEnv b q r b' := by
  unfold bankAnswer at h
  cases ha : answer c q b.world with
  | none => simp [ha] at h
  | some a =>
    simp only [ha, Option.some.injEq, Prod.mk.injEq] at h
    rw [← h.1, ← h.2]
    exact ⟨⟨c, ha⟩, opens_openedBy q a.1 b.openings⟩

theorem orderly_alone {s s' : Requests} (hext : dto.externalId ≠ none)
    (hothers : ∀ j, j ≠ 0 → s'.histories j = none)
    (hfound : ∀ id, s.histories 0 = some .running → s'.histories 0 ≠ some (.named id)) :
    Orderly request dto s s' := by
  refine ⟨fun hnone => absurd hnone hext, fun j id hj hj' => ?_⟩
  by_cases hj0 : j = 0
  · subst hj0
    exact absurd hj' (hfound id hj)
  · rw [hothers j hj0] at hj'
    cases hj'

def openedAs (providerAccountId : String) : Choice := { opened := .ok ⟨providerAccountId, .ACTIVE⟩ }

def oneTry : Requests :=
  ⟨idlePool.world, Function.update idlePool.threads 0 (some (.outside, handle sampleRequest
    (createHandler sampleActor (sampleDto (some "customer-1")))))⟩

/-- One try that opens and links its account. -/
theorem one_account_per_key_linked : ∃ s : Requests, s.world.openings.length = 1 ∧ OneAccount s := by
  have hsteps : ∃ s : Requests, s.world.openings.length = 1 ∧
      (creations sampleRequest sampleActor (sampleDto (some "customer-1"))).Under
        (Orderly sampleRequest (sampleDto (some "customer-1"))) oneTry s := by
    refine ⟨_, ?_,
      .head ⟨.resume 0 rfl trivial (bankEnv_of_answer (c := { ulid := "1", secondUlid := "1" }) rfl), ?_⟩
      (.head ⟨.resume 0 rfl trivial (bankEnv_of_answer (c := {}) rfl), ?_⟩
      (.head ⟨.resume 0 rfl trivial (bankEnv_of_answer (c := {}) rfl), ?_⟩
      (.head ⟨.resume 0 rfl trivial (bankEnv_of_answer (c := {}) rfl), ?_⟩
      (.head ⟨.resume 0 rfl trivial (bankEnv_of_answer (c := { ulid := "2" }) rfl), ?_⟩
      (.head ⟨.resume 0 rfl trivial (bankEnv_of_answer (c := {}) rfl), ?_⟩
      (.head ⟨.resume 0 rfl trivial (bankEnv_of_answer (c := {}) rfl), ?_⟩
      (.head ⟨.resume 0 rfl trivial (bankEnv_of_answer (c := openedAs "pac_2") rfl), ?_⟩
      (.single ⟨.resume 0 rfl trivial (bankEnv_of_answer (c := {}) rfl), ?_⟩))))))))⟩
    · decide
    all_goals
      refine orderly_alone (by simp [sampleDto]) (fun j hj => ?_) fun id hj => ?_
      · simp [Pool.histories, oneTry, idlePool, hj]
      · first
          | cases hj; done
          | intro hj'; cases hj'
  obtain ⟨s, hopen, hs⟩ := hsteps
  refine ⟨s, hopen, one_account_per_key rfl (idlePool_fresh (some "customer-1"))
    (.head ⟨.spawn 0 rfl ⟨rfl, rfl⟩, ?_⟩ hs)⟩
  refine orderly_alone (by simp [sampleDto]) (fun j hj => ?_) fun id hj => ?_
  · simp [Pool.histories, idlePool, hj]
  · cases hj

def twoTries (externalId : Option String) : Requests :=
  ⟨idlePool.world, Function.update (Function.update idlePool.threads 0
    (some (.outside, handle sampleRequest (createHandler sampleActor (sampleDto externalId))))) 1
    (some (.outside, handle sampleRequest (createHandler sampleActor (sampleDto externalId))))⟩

/-- The first try opens the account and fails to write the link down, which gives
the key free; the second one opens another account. -/
def bothOpen : List (Nat × Choice) :=
  [(0, { ulid := "1", secondUlid := "1" }), (0, {}), (0, {}), (0, { ulid := "2" }), (0, {}), (0, {}),
    (0, openedAs "pac_2"), (0, { fault := some "connection reset" }), (0, {}),
    (1, { ulid := "3", secondUlid := "3" }), (1, {}), (1, {}), (1, { ulid := "4" }), (1, {}), (1, {}),
    (1, openedAs "pac_3")]

theorem two_accounts_opened :
    ¬ ∀ (request : IdempotentRequest) (actor : Pix.Transfers.ActorContext) (dto : CreateAccountDto)
      (s₀ s : Requests), request.key.isEmpty = false → Fresh request dto s₀ →
      (creations request actor dto).Reaches s₀ s → OneAccount s := by
  intro h
  have hstart : (creations sampleRequest sampleActor (sampleDto none)).Reaches idlePool (twoTries none) :=
    .head (.spawn 0 rfl ⟨rfl, rfl⟩) (.single (.spawn 1 rfl ⟨rfl, rfl⟩))
  have hscript : ∃ s, (twoTries none).script bankAnswer next bothOpen = some s ∧
      s.world.openings.length = 2 := ⟨_, rfl, by decide⟩
  obtain ⟨s, hs, htwo⟩ := hscript
  have hrun : (creations sampleRequest sampleActor (sampleDto none)).Reaches (twoTries none) s :=
    System.reaches_of_script (fun _ _ _ _ _ => bankEnv_of_answer) (fun _ _ => trivial) hs
  have hone := (h sampleRequest sampleActor (sampleDto none) idlePool s rfl (idlePool_fresh none)
    (hstart.trans hrun)).1
  rw [htwo] at hone
  exact absurd hone (by decide)

end Sample

end BaasConnector.Accounts.Retries
