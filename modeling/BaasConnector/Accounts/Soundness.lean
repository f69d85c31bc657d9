import BaasConnector.Accounts.Openings

namespace BaasConnector.Accounts.Soundness

open BaasConnector.Lib.Effects BaasConnector.Lib.Keyed BaasConnector.Taxonomy.Errors
open BaasConnector.Connector.Records BaasConnector.Connector.Calls BaasConnector.Connector.Database
open BaasConnector.Connector.Replies BaasConnector.Idempotency.Interceptor BaasConnector.Accounts.Create
open BaasConnector.Accounts.Rows BaasConnector.Accounts.Openings

/-- An execution that may still call the provider. -/
def Stage.mayOpen : Stage → Prop
  | .running | .drafted _ => True
  | _ => False

/-- The account is linked; or it is not open at the provider, and no execution is
between the row and the link. -/
def Answerable (b : Bank) (g : Nat → Option Stage) (id : String) : Prop :=
  Linked b.world id ∨ (b.world.accounts.get id ≠ none ∧ id ∉ b.openings ∧
    ∀ i, g i ≠ some (.drafted id) ∧ g i ≠ some (.opened id))

variable {request : IdempotentRequest} {dto : CreateAccountDto} {actor : Pix.Transfers.ActorContext}
  {b b' : Bank} {g : Nat → Option Stage} {i : Nat} {h h' : Stage} {id : String}

structure Sound (request : IdempotentRequest) (dto : CreateAccountDto) (b : Bank)
    (g : Nat → Option Stage) : Prop where
  rows : ∀ id, (id ∈ b.openings ∨ ∃ i, g i = some (.drafted id) ∨ g i = some (.opened id)) →
    ∃ a, b.world.accounts.get id = some a ∧ a.externalId = dto.externalId
  unique : ∀ ext, dto.externalId = some ext → ∀ id id' a a', b.world.accounts.get id = some a →
    b.world.accounts.get id' = some a' → a.externalId = some ext → a'.externalId = some ext → id = id'
  small : b.openings.length ≤ 1
  pending : dto.externalId = none → ∀ i h, g i = some h → Stage.mayOpen h → b.openings = [] ∧
    ∀ j h', g j = some h' → Stage.mayOpen h' → j = i
  held : dto.externalId = none → (b.openings ≠ [] ∨ ∃ i h, g i = some h ∧ Stage.mayOpen h) →
    Held request.endpointKey request.key b.world
  named : ∀ i id, g i = some (.named id) → Answerable b g id
  stored : ∀ k record id, b.world.idempotency.get k = some record →
    record.endpointKey = request.endpointKey → record.key = request.key →
    record.responseBody.bind accountOf = some id → Answerable b g id

/-- No account is new, and those that are there have grown. -/
def Grows (w w' : World) : Prop :=
  ∀ id, (w.accounts.get id = none → w'.accounts.get id = none) ∧
    ∀ a, w.accounts.get id = some a → ∃ a', w'.accounts.get id = some a' ∧ Grown a a'

theorem Grows.back {w w' : World} (hg : Grows w w') {a' : AccountRecord}
    (ha : w'.accounts.get id = some a') : ∃ a, w.accounts.get id = some a ∧ Grown a a' := by
  cases hw : w.accounts.get id with
  | none =>
    rw [(hg id).1 hw] at ha
    cases ha
  | some a =>
    obtain ⟨a'', ha'', hgrown⟩ := (hg id).2 a hw
    rw [ha, Option.some.injEq] at ha''
    exact ⟨a, rfl, ha'' ▸ hgrown⟩

theorem Grows.rows {w w' : World} (hg : Grows w w') {ext : Option String}
    (h : ∃ a, w.accounts.get id = some a ∧ a.externalId = ext) :
    ∃ a, w'.accounts.get id = some a ∧ a.externalId = ext := by
  obtain ⟨a, ha, he⟩ := h
  obtain ⟨a', ha', hgrown⟩ := (hg id).2 a ha
  exact ⟨a', ha', hgrown.1.trans he⟩

theorem Grows.answerable (hg : Grows b.world b'.world) {g' : Nat → Option Stage}
    (hopen : ∀ x, x ∈ b'.openings → x ∈ b.openings ∨ ∃ i, g i = some (.drafted x))
    (hstage : ∀ i x, g' i = some (.drafted x) ∨ g' i = some (.opened x) →
      ∃ i, g i = some (.drafted x) ∨ g i = some (.opened x)) (ha : Answerable b g id) :
    Answerable b' g' id := by
  obtain ⟨a, ha, hp⟩ | ⟨hrow, hnot, hnone⟩ := ha
  · obtain ⟨a', ha', hgrown⟩ := (hg id).2 a ha
    exact .inl ⟨a', ha', hgrown.2 hp⟩
  · refine .inr ⟨fun hn => ?_, fun hmem => ?_, fun i => ⟨fun hi => ?_, fun hi => ?_⟩⟩
    · cases hw : b.world.accounts.get id with
      | none => exact hrow hw
      | some a =>
        obtain ⟨a', ha', _⟩ := (hg id).2 a hw
        rw [hn] at ha'
        cases ha'
    · obtain h | ⟨i, hi⟩ := hopen id hmem
      · exact hnot h
      · exact (hnone i).1 hi
    · obtain ⟨j, hj | hj⟩ := hstage i id (.inl hi)
      · exact (hnone j).1 hj
      · exact (hnone j).2 hj
    · obtain ⟨j, hj | hj⟩ := hstage i id (.inr hi)
      · exact (hnone j).1 hj
      · exact (hnone j).2 hj

theorem update_cases {j : Nat} (hj : Function.update g i (some h') j = some h) :
    (j = i ∧ h = h') ∨ (j ≠ i ∧ g j = some h) := by
  by_cases hji : j = i
  · subst hji
    rw [Function.update_self, Option.some.injEq] at hj
    exact .inl ⟨rfl, hj.symm⟩
  · rw [Function.update_of_ne hji] at hj
    exact .inr ⟨hji, hj⟩

/-- One request moves on and opens no account on the way. -/
theorem sound_move (hs : Sound request dto b g) (hi : g i = some h) (hg : Grows b.world b'.world)
    (hopen : b'.openings = b.openings)
    (hpath : ∀ x, h' = .drafted x ∨ h' = .opened x → h = .drafted x ∨ h = .opened x)
    (hpending : dto.externalId = none → Stage.mayOpen h' → b.openings = [] ∧
      ∀ j h'', j ≠ i → g j = some h'' → ¬ Stage.mayOpen h'')
    (hheld : dto.externalId = none → Held request.endpointKey request.key b'.world ∨
      (b.openings = [] ∧ ∀ j h'', Function.update g i (some h') j = some h'' → ¬ Stage.mayOpen h''))
    (hnamed : ∀ id, h' = .named id → Answerable b g id ∨ Linked b'.world id)
    (hstored : ∀ k record id, b'.world.idempotency.get k = some record →
      record.endpointKey = request.endpointKey → record.key = request.key →
      record.responseBody.bind accountOf = some id → Answerable b g id) :
    Sound request dto b' (Function.update g i (some h')) := by
  have hstage : ∀ j x, Function.update g i (some h') j = some (.drafted x) ∨
      Function.update g i (some h') j = some (.opened x) →
      ∃ i, g i = some (.drafted x) ∨ g i = some (.opened x) := by
    intro j x hj
    have hcase : ∀ h'', h'' = .drafted x ∨ h'' = .opened x → Function.update g i (some h') j = some h'' →
        ∃ i, g i = some (.drafted x) ∨ g i = some (.opened x) := by
      intro h'' hx hj
      obtain ⟨_, he⟩ | ⟨_, hg⟩ := update_cases hj
      · obtain rfl | rfl := hpath x (he ▸ hx)
        · exact ⟨i, .inl hi⟩
        · exact ⟨i, .inr hi⟩
      · obtain rfl | rfl := hx
        · exact ⟨j, .inl hg⟩
        · exact ⟨j, .inr hg⟩
    exact hj.elim (hcase _ (.inl rfl)) (hcase _ (.inr rfl))
  have hans : ∀ {id}, Answerable b g id → Answerable b' (Function.update g i (some h')) id :=
    fun ha => hg.answerable (fun x hx => .inl (hopen ▸ hx)) hstage ha
  refine ⟨fun x hx => hg.rows (hs.rows x ?_), fun ext hext x x' a a' ha ha' he he' => ?_, hopen ▸ hs.small,
    fun hnone j h'' hj hmay => ?_, fun hnone hor => ?_, fun j x hj => ?_, fun k record x hk he hkey hx => ?_⟩
  · obtain hx | ⟨j, hj⟩ := hx
    · exact .inl (hopen ▸ hx)
    · exact .inr (hstage j x hj)
  · obtain ⟨c, hc, hcg⟩ := hg.back ha
    obtain ⟨c', hc', hcg'⟩ := hg.back ha'
    exact hs.unique ext hext x x' c c' hc hc' (hcg.1 ▸ he) (hcg'.1 ▸ he')
  · rw [hopen]
    obtain ⟨rfl, rfl⟩ | ⟨hji, hgj⟩ := update_cases hj
    · obtain ⟨hempty, hothers⟩ := hpending hnone hmay
      refine ⟨hempty, fun k h'' hk hmay' => ?_⟩
      obtain ⟨hki, _⟩ | ⟨hki, hgk⟩ := update_cases hk
      · exact hki
      · exact absurd hmay' (hothers k h'' hki hgk)
    · obtain ⟨hempty, hothers⟩ := hs.pending hnone j h'' hgj hmay
      refine ⟨hempty, fun k h3 hk hmay' => ?_⟩
      obtain ⟨hki, rfl⟩ | ⟨_, hgk⟩ := update_cases hk
      · exact absurd hmay ((hpending hnone hmay').2 j h'' hji hgj)
      · exact hothers k h3 hgk hmay'
  · obtain hh | ⟨hempty, hno⟩ := hheld hnone
    · exact hh
    · obtain hne | ⟨j, h'', hj, hmay⟩ := hor
      · exact absurd (hopen.trans hempty) hne
      · exact absurd hmay (hno j h'' hj)
  · obtain ⟨_, he⟩ | ⟨_, hgj⟩ := update_cases hj
    · exact (hnamed x he.symm).elim hans .inl
    · exact hans (hs.named j x hgj)
  · exact hans (hstored k record x hk he hkey hx)

/-- One request moves on where it was as far as the key is concerned. -/
theorem sound_keep (hs : Sound request dto b g) (hi : g i = some h) (hg : Grows b.world b'.world)
    (hopen : b'.openings = b.openings)
    (hpath : ∀ x, h' = .drafted x ∨ h' = .opened x → h = .drafted x ∨ h = .opened x)
    (hmay : Stage.mayOpen h' → Stage.mayOpen h)
    (hheld : Held request.endpointKey request.key b.world → Held request.endpointKey request.key b'.world)
    (hnamed : ∀ id, h' = .named id → Answerable b g id ∨ Linked b'.world id)
    (hstored : ∀ k record id, b'.world.idempotency.get k = some record →
      record.endpointKey = request.endpointKey → record.key = request.key →
      record.responseBody.bind accountOf = some id → Answerable b g id) :
    Sound request dto b' (Function.update g i (some h')) := by
  refine sound_move hs hi hg hopen hpath (fun hnone hmay' => ?_) (fun hnone => ?_) hnamed hstored
  · obtain ⟨hempty, hothers⟩ := hs.pending hnone i h hi (hmay hmay')
    exact ⟨hempty, fun j h'' hji hj hm => hji (hothers j h'' hj hm)⟩
  · by_cases hor : b.openings ≠ [] ∨ ∃ i h, g i = some h ∧ Stage.mayOpen h
    · exact .inl (hheld (hs.held hnone hor))
    · refine .inr ⟨?_, fun j h'' hj hm => ?_⟩
      · by_contra hne
        exact hor (.inl hne)
      · obtain ⟨_, rfl⟩ | ⟨_, hgj⟩ := update_cases hj
        · exact hor (.inr ⟨i, h, hi, hmay hm⟩)
        · exact hor (.inr ⟨j, h'', hgj, hm⟩)

theorem stored_of_carried {written : ResponseBody → Prop} (hs : Sound request dto b g)
    (hc : Carried written b.world b'.world)
    (hwritten : ∀ body id, written body → accountOf body = some id → Answerable b g id) :
    ∀ k record id, b'.world.idempotency.get k = some record →
      record.endpointKey = request.endpointKey → record.key = request.key →
      record.responseBody.bind accountOf = some id → Answerable b g id := by
  intro k record id hk he hkey hid
  obtain ⟨before, hb, hbe, hbk, hbody | ⟨body, hbody, hw⟩⟩ := hc k record hk
  · exact hs.stored k before id hb (hbe ▸ he) (hbk ▸ hkey) (hbody ▸ hid)
  · rw [hbody] at hid
    exact hwritten body id hw hid

/-- A row is written for the request that is going to the provider. -/
theorem sound_draft (hs : Sound request dto b g) (hi : g i = some .running) {row : AccountRecord}
    (hnew : b.world.accounts.get row.id = none) (hext : row.externalId = dto.externalId)
    (huniq : ∀ ext, row.externalId = some ext → ∀ k a, b.world.accounts.get k = some a →
      a.externalId ≠ some ext)
    (haccounts : b'.world.accounts = b.world.accounts.put row)
    (hrecords : b'.world.idempotency = b.world.idempotency) (hopen : b'.openings = b.openings) :
    Sound request dto b' (Function.update g i (some (.drafted row.id))) := by
  have hold : ∀ {id a}, b.world.accounts.get id = some a → b'.world.accounts.get id = some a := by
    intro id a ha
    have hne : id ≠ row.id := by
      rintro rfl
      rw [hnew] at ha
      cases ha
    rw [haccounts, Rows.get_put_ne _ _ hne]
    exact ha
  have hback : ∀ {id a}, b'.world.accounts.get id = some a →
      (id = row.id ∧ a = row) ∨ (id ≠ row.id ∧ b.world.accounts.get id = some a) := by
    intro id a ha
    by_cases hid : id = row.id
    · rw [haccounts, hid, Rows.get_put_self, Option.some.injEq] at ha
      exact .inl ⟨hid, ha.symm⟩
    · rw [haccounts, Rows.get_put_ne _ _ hid] at ha
      exact .inr ⟨hid, ha⟩
  have hans : ∀ {id}, Answerable b g id →
      Answerable b' (Function.update g i (some (.drafted row.id))) id := by
    rintro id (⟨a, ha, hp⟩ | ⟨hrow, hnot, hnone⟩)
    · exact .inl ⟨a, hold ha, hp⟩
    · obtain ⟨a, ha⟩ := Option.ne_none_iff_exists'.mp hrow
      refine .inr ⟨by rw [hold ha]; simp, hopen ▸ hnot, fun j => ⟨fun hj => ?_, fun hj => ?_⟩⟩
      · obtain ⟨_, he⟩ | ⟨_, hgj⟩ := update_cases hj
        · cases he
          rw [hnew] at ha
          cases ha
        · exact (hnone j).1 hgj
      · obtain ⟨_, he⟩ | ⟨_, hgj⟩ := update_cases hj
        · cases he
        · exact (hnone j).2 hgj
  have hgrow : ∀ {id}, (∃ a, b.world.accounts.get id = some a ∧ a.externalId = dto.externalId) →
      ∃ a, b'.world.accounts.get id = some a ∧ a.externalId = dto.externalId :=
    fun ⟨a, ha, he⟩ => ⟨a, hold ha, he⟩
  have hrow : ∃ a, b'.world.accounts.get row.id = some a ∧ a.externalId = dto.externalId :=
    ⟨row, by rw [haccounts, Rows.get_put_self], hext⟩
  refine ⟨fun x hx => ?_, fun ext hdto x x' a a' ha ha' he he' => ?_, hopen ▸ hs.small,
    fun hnone j h'' hj hmay => ?_, fun hnone _ => ?_, fun j x hj => ?_, fun k record x hk he hkey hx => ?_⟩
  · obtain hx | ⟨j, hj | hj⟩ := hx
    · exact hgrow (hs.rows x (.inl (hopen ▸ hx)))
    · obtain ⟨_, he⟩ | ⟨_, hgj⟩ := update_cases hj
      · cases he
        exact hrow
      · exact hgrow (hs.rows x (.inr ⟨j, .inl hgj⟩))
    · obtain ⟨_, he⟩ | ⟨_, hgj⟩ := update_cases hj
      · cases he
      · exact hgrow (hs.rows x (.inr ⟨j, .inr hgj⟩))
  · obtain ⟨rfl, rfl⟩ | ⟨_, hb⟩ := hback ha <;> rcases hback ha' with ⟨rfl, rfl⟩ | ⟨_, hb'⟩
    · rfl
    · exact absurd he' (huniq ext he x' a' hb')
    · exact absurd he (huniq ext he' x a hb)
    · exact hs.unique ext hdto x x' a a' hb hb' he he'
  · obtain ⟨hempty, hothers⟩ := hs.pending hnone i .running hi trivial
    have hall : ∀ k h3, Function.update g i (some (.drafted row.id)) k = some h3 →
        Stage.mayOpen h3 → k = i := by
      intro k h3 hk hm
      obtain ⟨hki, _⟩ | ⟨_, hgk⟩ := update_cases hk
      · exact hki
      · exact hothers k h3 hgk hm
    exact ⟨hopen ▸ hempty, fun k h3 hk hm => (hall k h3 hk hm).trans (hall j h'' hj hmay).symm⟩
  · obtain ⟨k, record, hk, hkeys⟩ := hs.held hnone (.inr ⟨i, .running, hi, trivial⟩)
    exact ⟨k, record, hrecords ▸ hk, hkeys⟩
  · obtain ⟨_, he⟩ | ⟨_, hgj⟩ := update_cases hj
    · cases he
    · exact hans (hs.named j x hgj)
  · rw [hrecords] at hk
    exact hans (hs.stored k record x hk he hkey hx)

/-- The provider is called for the one row that is drafted. -/
theorem sound_open (hs : Sound request dto b g) (hi : g i = some (.drafted id))
    (hw : b'.world.accounts = b.world.accounts) (hrecords : b'.world.idempotency = b.world.idempotency)
    (hopen : b'.openings = b.openings ∨ b'.openings = b.openings.insert id)
    (hstage : h' = .opened id ∨ h' = .ended) :
    Sound request dto b' (Function.update g i (some h')) := by
  have hmem : ∀ x, x ∈ b'.openings → x ∈ b.openings ∨ x = id := by
    intro x hx
    obtain he | he := hopen
    · exact .inl (he ▸ hx)
    · rw [he] at hx
      exact (List.mem_insert_iff.mp hx).symm
  have hgrow : Grows b.world b'.world := fun x => by
    rw [hw]
    exact ⟨fun hn => hn, fun a ha => ⟨a, ha, rfl, fun h => h⟩⟩
  have hnot : ¬ Stage.mayOpen h' := by
    obtain rfl | rfl := hstage <;> exact fun h => h
  have hpath : ∀ j x, Function.update g i (some h') j = some (.drafted x) ∨
      Function.update g i (some h') j = some (.opened x) →
      ∃ i, g i = some (.drafted x) ∨ g i = some (.opened x) := by
    rintro j x (hj | hj)
    · obtain ⟨_, he⟩ | ⟨_, hgj⟩ := update_cases hj
      · obtain rfl | rfl := hstage <;> cases he
      · exact ⟨j, .inl hgj⟩
    · obtain ⟨_, he⟩ | ⟨_, hgj⟩ := update_cases hj
      · obtain rfl | rfl := hstage <;> cases he
        exact ⟨i, .inl hi⟩
      · exact ⟨j, .inr hgj⟩
  have hans : ∀ {x}, Answerable b g x → Answerable b' (Function.update g i (some h')) x :=
    fun ha => hgrow.answerable (fun x hx => (hmem x hx).imp_right fun he => ⟨i, he ▸ hi⟩) hpath ha
  have hothers : dto.externalId = none → ∀ j h'', Function.update g i (some h') j = some h'' →
      ¬ Stage.mayOpen h'' := by
    intro hnone j h'' hj hmay
    obtain ⟨_, rfl⟩ | ⟨hji, hgj⟩ := update_cases hj
    · exact hnot hmay
    · exact hji ((hs.pending hnone i _ hi trivial).2 j h'' hgj hmay)
  have hsmall : b'.openings.length ≤ 1 := by
    obtain he | he := hopen
    · exact he ▸ hs.small
    · cases hext : dto.externalId with
      | none =>
        rw [he, (hs.pending hext i _ hi trivial).1]
        exact Nat.le_refl 1
      | some ext =>
        have hsame : ∀ x ∈ b.openings, x = id := by
          intro x hx
          obtain ⟨a, ha, hax⟩ := hs.rows x (.inl hx)
          obtain ⟨c, hc, hcx⟩ := hs.rows id (.inr ⟨i, .inl hi⟩)
          exact hs.unique ext hext x id a c ha hc (hax.trans hext) (hcx.trans hext)
        rw [he]
        cases hl : b.openings with
        | nil => exact Nat.le_refl 1
        | cons x xs =>
          have hx : x = id := hsame x (hl ▸ List.mem_cons_self)
          have hlen := hs.small
          rw [hl] at hlen
          rw [List.insert_of_mem (hx ▸ List.mem_cons_self)]
          exact hlen
  refine ⟨fun x hx => hgrow.rows (hs.rows x ?_), fun ext hext x x' a a' ha ha' he he' => ?_, hsmall,
    fun hnone j h'' hj hmay => absurd hmay (hothers hnone j h'' hj), fun hnone _ => ?_,
    fun j x hj => ?_, fun k record x hk he hkey hx => ?_⟩
  · obtain hx | ⟨j, hj⟩ := hx
    · exact (hmem x hx).imp_right fun he => ⟨i, .inl (by rw [he]; exact hi)⟩
    · exact .inr (hpath j x hj)
  · rw [hw] at ha ha'
    exact hs.unique ext hext x x' a a' ha ha' he he'
  · obtain ⟨k, record, hk, hkeys⟩ := hs.held hnone (.inr ⟨i, _, hi, trivial⟩)
    exact ⟨k, record, hrecords ▸ hk, hkeys⟩
  · obtain ⟨_, he⟩ | ⟨_, hgj⟩ := update_cases hj
    · obtain rfl | rfl := hstage <;> cases he
    · exact hans (hs.named j x hgj)
  · rw [hrecords] at hk
    exact hans (hs.stored k record x hk he hkey hx)

/-- The record that a try is up against stands for the key. -/
def Conflicts (request : IdempotentRequest) (b : Bank) (g : Nat → Option Stage) : Prop :=
  ∀ i recordId, g i = some (.conflicted recordId) → ∀ record,
    b.world.idempotency.get recordId = some record →
    record.endpointKey = request.endpointKey ∧ record.key = request.key

theorem conflicts_move (hc : Conflicts request b g)
    (hkept : ∀ k record', b'.world.idempotency.get k = some record' →
      (record'.endpointKey = request.endpointKey ∧ record'.key = request.key) ∨
      ∃ record, b.world.idempotency.get k = some record ∧ record'.endpointKey = record.endpointKey ∧
        record'.key = record.key)
    (hnew : ∀ recordId, h' = .conflicted recordId → h = .conflicted recordId ∨ ∀ record,
      b'.world.idempotency.get recordId = some record →
      record.endpointKey = request.endpointKey ∧ record.key = request.key) (hi : g i = some h) :
    Conflicts request b' (Function.update g i (some h')) := by
  have hold : ∀ j recordId, g j = some (.conflicted recordId) → ∀ record,
      b'.world.idempotency.get recordId = some record →
      record.endpointKey = request.endpointKey ∧ record.key = request.key := by
    intro j recordId hj record hr
    obtain h | ⟨before, hb, he, hkey⟩ := hkept recordId record hr
    · exact h
    · have hbefore := hc j recordId hj before hb
      exact ⟨he.trans hbefore.1, hkey.trans hbefore.2⟩
  intro j recordId hj record hr
  obtain ⟨_, he⟩ | ⟨_, hgj⟩ := update_cases hj
  · obtain h | h := hnew recordId he.symm
    · exact hold i recordId (h ▸ hi) record hr
    · exact h record hr
  · exact hold j recordId hgj record hr

theorem kept_of_carried {written : ResponseBody → Prop} (hc : Carried written b.world b'.world) :
    ∀ k record', b'.world.idempotency.get k = some record' →
      (record'.endpointKey = request.endpointKey ∧ record'.key = request.key) ∨
      ∃ record, b.world.idempotency.get k = some record ∧ record'.endpointKey = record.endpointKey ∧
        record'.key = record.key := by
  intro k record' hk
  obtain ⟨record, hr, he, hkey, _⟩ := hc k record' hk
  exact .inr ⟨record, hr, he, hkey⟩

theorem grows_of_env {q : Call} {r : Except Thrown (Answer q)} (hq : ∀ record, q ≠ .accountCreate record)
    (henv : env b.world q r b'.world) : Grows b.world b'.world := fun _ => env_account hq henv

theorem openings_same {q : Call} {r : Except Thrown (Answer q)} {before after : List String}
    (hq : ∀ externalId, q ≠ .providerCreateAccount externalId) (ho : opens q r before after) :
    after = before := by
  cases q with
  | providerCreateAccount externalId => exact absurd rfl (hq externalId)
  | _ => exact ho

/-- A call that leaves records and links alone. -/
theorem sound_quiet (hs : Sound request dto b g) (hc : Conflicts request b g) (hi : g i = some h) {q : Call}
    {r : Except Thrown (Answer q)} (hq : Quiet q ∨ ∃ ext, q = .accountFindByExternalId ext)
    (henv : bankEnv b q r b') (hpath : ∀ x, h' = .drafted x ∨ h' = .opened x → h = .drafted x ∨ h = .opened x)
    (hmay : Stage.mayOpen h' → Stage.mayOpen h)
    (hconf : ∀ recordId, h' = .conflicted recordId → h = .conflicted recordId)
    (hnamed : ∀ id, h' = .named id → Answerable b g id) :
    Sound request dto b' (Function.update g i (some h')) ∧
      Conflicts request b' (Function.update g i (some h')) := by
  have hfree : (∀ record, q ≠ .accountCreate record) ∧ (∀ ext, q ≠ .providerCreateAccount ext) ∧
      Call.touchesRecords q = false := by
    obtain hq | ⟨ext, rfl⟩ := hq
    · cases q <;> first | exact hq.elim | exact ⟨by simp, by simp, rfl⟩
    · exact ⟨by simp, by simp, rfl⟩
  have hrecords := env_records hfree.2.2 henv.1
  have hcarried : Carried (fun _ => False) b.world b'.world := .refl hrecords
  refine ⟨sound_keep hs hi (grows_of_env hfree.1 henv.1) (openings_same hfree.2.1 henv.2) hpath hmay
    (fun ⟨k, record, hk, h⟩ => ⟨k, record, hrecords ▸ hk, h⟩) (fun id hid => .inl (hnamed id hid))
    (stored_of_carried hs hcarried fun _ _ h => h.elim), ?_⟩
  exact conflicts_move hc (kept_of_carried hcarried) (fun recordId he => .inl (hconf recordId he)) hi

/-- What a step may do to the key: give it free or take it over only where no
other execution may still open an account and none has. -/
def Exclusive (request : IdempotentRequest) (dto : CreateAccountDto) (b b' : Bank)
    (g : Nat → Option Stage) (i : Nat) (h h' : Stage) : Prop :=
  dto.externalId = none →
    (Held request.endpointKey request.key b.world ∧ ¬ Held request.endpointKey request.key b'.world) ∨
      (∃ recordId, h = .conflicted recordId ∧ h' = .running) →
    b.openings = [] ∧ ∀ j h'', j ≠ i → g j = some h'' → ¬ Stage.mayOpen h''

theorem idle_of_not_held (hs : Sound request dto b g) (hnone : dto.externalId = none)
    (hheld : ¬ Held request.endpointKey request.key b.world) :
    b.openings = [] ∧ ∀ j h'', g j = some h'' → ¬ Stage.mayOpen h'' := by
  refine ⟨?_, fun j h'' hj hm => hheld (hs.held hnone (.inr ⟨j, h'', hj, hm⟩))⟩
  by_contra hne
  exact hheld (hs.held hnone (.inl hne))

theorem closing_next {q : Call} {r : Except Thrown (Answer q)} (hq : Closing h q) (hh : h.settled) :
    ¬ Stage.mayOpen (next h q r) ∧ (next h q r = h ∨ next h q r = .ended) := by
  cases h <;> first | exact hh.elim | skip
  · cases q <;> first | exact hq.elim | exact ⟨fun h => h, .inr rfl⟩
  · cases q <;> first | exact hq.elim | exact ⟨fun h => h, .inl rfl⟩
  · cases q <;> first | exact hq.elim | exact ⟨fun h => h, .inl rfl⟩

theorem sound_closing (hs : Sound request dto b g) (hc : Conflicts request b g) (hi : g i = some h)
    {q : Call} {r : Except Thrown (Answer q)} (hq : Closing h q) (hh : h.settled) (henv : bankEnv b q r b')
    (hex : Exclusive request dto b b' g i h (next h q r)) :
    Sound request dto b' (Function.update g i (some (next h q r))) ∧
      Conflicts request b' (Function.update g i (some (next h q r))) := by
  obtain ⟨hmay, hsame⟩ := closing_next (r := r) hq hh
  have hpath : ∀ x, next h q r = .drafted x ∨ next h q r = .opened x → h = .drafted x ∨ h = .opened x := by
    intro x hx
    obtain he | he := hsame
    · exact he ▸ hx
    · rw [he] at hx
      obtain hx | hx := hx <;> cases hx
  have hconf : ∀ recordId, next h q r = .conflicted recordId → h = .conflicted recordId := by
    intro recordId hx
    obtain he | he := hsame
    · exact he ▸ hx
    · rw [he] at hx
      cases hx
  have hnamed : ∀ id, next h q r = .named id → Answerable b g id ∨ Linked b'.world id := by
    intro id hid
    obtain he | he := hsame
    · exact .inl (hs.named i id (hi.trans (congrArg some (he.symm.trans hid))))
    · rw [he] at hid
      cases hid
  have hfree : (∀ record, q ≠ .accountCreate record) ∧ ∀ ext, q ≠ .providerCreateAccount ext := by
    cases q <;> first | exact hq.elim | exact ⟨by simp, by simp⟩
  have hgrows := grows_of_env hfree.1 henv.1
  have hopen := openings_same hfree.2 henv.2
  have hrenewed : ∀ {written : ResponseBody → Prop}, Carried written b.world b'.world →
      (Held request.endpointKey request.key b.world → Held request.endpointKey request.key b'.world) →
      (∀ body id, written body → accountOf body = some id → Answerable b g id) →
      Sound request dto b' (Function.update g i (some (next h q r))) ∧
        Conflicts request b' (Function.update g i (some (next h q r))) :=
    fun hcarried hheld hwritten => ⟨sound_keep hs hi hgrows hopen hpath
      (fun hm => absurd hm hmay) hheld hnamed
      (stored_of_carried hs hcarried hwritten),
      conflicts_move hc (kept_of_carried hcarried) (fun recordId he => .inl (hconf recordId he)) hi⟩
  cases q with
  | idempotencyRenewLease recordId leaseSeconds =>
    have hkept : Carried (fun _ => False) b.world b'.world ∧ (Held request.endpointKey request.key b.world →
        Held request.endpointKey request.key b'.world) := env_renewed (.inl ⟨_, _, rfl⟩) henv.1
    exact hrenewed hkept.1 hkept.2 fun _ _ h => h.elim
  | idempotencyComplete completion =>
    have hkept : Carried (fun body => body = completion.body) b.world b'.world ∧
        (Held request.endpointKey request.key b.world → Held request.endpointKey request.key b'.world) :=
      env_renewed (.inr (.inr ⟨completion, rfl, rfl⟩)) henv.1
    refine hrenewed hkept.1 hkept.2 fun body id hbody hid => ?_
    subst hbody
    exact hs.named i id (hq id hid ▸ hi)
  | idempotencyRelease recordId =>
    have hcarried : Carried (fun _ => False) b.world b'.world := env_release henv.1
    refine ⟨sound_move hs hi hgrows hopen hpath (fun _ hm => absurd hm hmay) (fun hnone => ?_) hnamed
      (stored_of_carried hs hcarried fun _ _ h => h.elim),
      conflicts_move hc (kept_of_carried hcarried) (fun recordId he => .inl (hconf recordId he)) hi⟩
    by_cases hb' : Held request.endpointKey request.key b'.world
    · exact .inl hb'
    · refine .inr ?_
      by_cases hb : Held request.endpointKey request.key b.world
      · obtain ⟨hempty, hothers⟩ := hex hnone (.inl ⟨hb, hb'⟩)
        refine ⟨hempty, fun j h'' hj hm => ?_⟩
        obtain ⟨_, rfl⟩ | ⟨hji, hgj⟩ := update_cases hj
        · exact hmay hm
        · exact hothers j h'' hji hgj hm
      · obtain ⟨hempty, hothers⟩ := idle_of_not_held hs hnone hb
        refine ⟨hempty, fun j h'' hj hm => ?_⟩
        obtain ⟨_, rfl⟩ | ⟨_, hgj⟩ := update_cases hj
        · exact hmay hm
        · exact hothers j h'' hgj hm
  | _ => exact hq.elim

theorem sound_claim (hs : Sound request dto b g) (hc : Conflicts request b g)
    (hi : g i = some .outside) {claim : IdempotencyClaim} {r : Except Thrown ClaimResult}
    (hclaim : claim.endpointKey = request.endpointKey ∧ claim.key = request.key)
    (henv : bankEnv b (.idempotencyClaim claim) r b') :
    Sound request dto b' (Function.update g i (some (next .outside (.idempotencyClaim claim) r))) ∧
      Conflicts request b' (Function.update g i (some (next .outside (.idempotencyClaim claim) r))) := by
  have hgrows : Grows b.world b'.world := grows_of_env (by simp) henv.1
  have hopen : b'.openings = b.openings := henv.2
  obtain ⟨hrecords, hfound⟩ | ⟨hfree, record, rfl, he, hkey, hbody, hrecords⟩ := env_claim henv.1
  · have hcarried : Carried (fun _ => False) b.world b'.world := .refl hrecords
    have hstored := stored_of_carried hs hcarried fun _ _ h => h.elim
    have hkeep : ∀ h', (∀ x, h' ≠ .drafted x ∧ h' ≠ .opened x) → ¬ Stage.mayOpen h' →
        (∀ id, h' = .named id → Answerable b g id) →
        (∀ recordId, h' = .conflicted recordId → ∀ record, b'.world.idempotency.get recordId = some record →
          record.endpointKey = request.endpointKey ∧ record.key = request.key) →
        Sound request dto b' (Function.update g i (some h')) ∧
          Conflicts request b' (Function.update g i (some h')) :=
      fun h' hpath hmay hnamed hconf => ⟨sound_keep hs hi hgrows hopen
        (fun x hx => (hx.elim (hpath x).1 (hpath x).2).elim) (fun hm => absurd hm hmay)
        (fun ⟨k, record, hk, h⟩ => ⟨k, record, hrecords ▸ hk, h⟩)
          (fun id hid => .inl (hnamed id hid)) hstored,
        conflicts_move hc (kept_of_carried hcarried) (fun recordId hr => .inr (hconf recordId hr)) hi⟩
    cases r with
    | error e => exact hkeep .outside (fun x => ⟨by simp, by simp⟩) (fun h => h) (by simp) (by simp)
    | ok result =>
      obtain ⟨hclaimed, k, hk, hre, hrk⟩ := hfound result rfl
      have hnext : next .outside (.idempotencyClaim claim) (.ok result) = replayed result.record :=
        if_neg (by rw [hclaimed]; simp)
      rw [hnext]
      unfold replayed
      by_cases hstate : result.record.state = .IN_FLIGHT
      · rw [if_pos hstate]
        refine hkeep _ (fun x => ⟨by simp, by simp⟩) (fun h => h) (by simp) fun recordId hr record hget => ?_
        have hid : result.record.id = k := Rows.key_of_get hk
        cases hr
        rw [hrecords, hid, hk, Option.some.injEq] at hget
        subst hget
        exact ⟨hre.trans hclaim.1, hrk.trans hclaim.2⟩
      · rw [if_neg hstate]
        cases hb : result.record.responseBody.bind accountOf with
        | none => exact hkeep _ (fun x => ⟨by simp, by simp⟩) (fun h => h) (by simp) (by simp)
        | some id =>
          refine hkeep _ (fun x => ⟨by simp, by simp⟩) (fun h => h) (fun x hx => ?_) (by simp)
          cases hx
          exact hs.stored k _ id hk (hre.trans hclaim.1) (hrk.trans hclaim.2) hb
  · have hidle : dto.externalId = none → b.openings = [] ∧ ∀ j h'', g j = some h'' → ¬ Stage.mayOpen h'' :=
      fun hnone => idle_of_not_held hs hnone (by rw [← hclaim.1, ← hclaim.2]; exact hfree)
    have hofkey : record.endpointKey = request.endpointKey ∧ record.key = request.key :=
      ⟨he.trans hclaim.1, hkey.trans hclaim.2⟩
    have hget : ∀ k record', b'.world.idempotency.get k = some record' →
        record' = record ∨ b.world.idempotency.get k = some record' := by
      intro k record' hk
      rw [hrecords, Rows.get_put] at hk
      split at hk
      · exact .inl (Option.some.inj hk).symm
      · exact .inr hk
    refine ⟨sound_move hs hi hgrows hopen (fun x hx => by obtain hx | hx := hx <;> cases hx)
      (fun hnone _ => ⟨(hidle hnone).1, fun j h'' _ hj => (hidle hnone).2 j h'' hj⟩)
      (fun _ => .inl ⟨record.id, record, by rw [hrecords, Rows.get_put_self], hofkey⟩)
      (fun id hid => by cases hid) (fun k record' id hk hre hrk hid => ?_), ?_⟩
    · obtain rfl | hb := hget k record' hk
      · rw [hbody] at hid
        cases hid
      · exact hs.stored k record' id hb hre hrk hid
    · refine conflicts_move hc (fun k record' hk => ?_) (fun recordId hr => by cases hr) hi
      obtain rfl | hb := hget k record' hk
      · exact .inl hofkey
      · exact .inr ⟨record', hb, rfl, rfl⟩

theorem sound_steal (hs : Sound request dto b g) (hc : Conflicts request b g) {recordId : String}
    (hi : g i = some (.conflicted recordId)) {leaseSeconds : Int}
    {r : Except Thrown (Option IdempotencyRecord)}
    (henv : bankEnv b (.idempotencyStealLease recordId leaseSeconds) r b')
    (hex : Exclusive request dto b b' g i (.conflicted recordId)
      (next (.conflicted recordId) (.idempotencyStealLease recordId leaseSeconds) r)) :
    Sound request dto b' (Function.update g i
        (some (next (.conflicted recordId) (.idempotencyStealLease recordId leaseSeconds) r))) ∧
      Conflicts request b' (Function.update g i
        (some (next (.conflicted recordId) (.idempotencyStealLease recordId leaseSeconds) r))) := by
  have hgrows : Grows b.world b'.world := grows_of_env (by simp) henv.1
  have hopen : b'.openings = b.openings := henv.2
  have hkept : Carried (fun _ => False) b.world b'.world ∧ (Held request.endpointKey request.key b.world →
      Held request.endpointKey request.key b'.world) := env_renewed (.inr (.inl ⟨_, _, rfl⟩)) henv.1
  have hstored := stored_of_carried hs hkept.1 fun _ _ h => h.elim
  have hsame : next (.conflicted recordId) (.idempotencyStealLease recordId leaseSeconds) r =
      .conflicted recordId → Sound request dto b' (Function.update g i
        (some (next (.conflicted recordId) (.idempotencyStealLease recordId leaseSeconds) r))) ∧
      Conflicts request b' (Function.update g i
        (some (next (.conflicted recordId) (.idempotencyStealLease recordId leaseSeconds) r))) := by
    intro he
    rw [he]
    exact ⟨sound_keep hs hi hgrows hopen (fun _ h => h) (fun h => h) hkept.2 (fun _ h => by cases h) hstored,
      conflicts_move hc (kept_of_carried hkept.1) (fun _ h => .inl h) hi⟩
  match r with
  | .error e => exact hsame rfl
  | .ok none => exact hsame rfl
  | .ok (some stolen) =>
    obtain ⟨record, hrecord⟩ := env_stolen henv.1
    have hheld : Held request.endpointKey request.key b.world :=
      ⟨recordId, record, hrecord, hc i recordId hi record hrecord⟩
    refine ⟨sound_move hs hi hgrows hopen (fun x hx => by obtain hx | hx := hx <;> cases hx)
      (fun hnone _ => hex hnone (.inr ⟨recordId, rfl, rfl⟩)) (fun _ => .inl (hkept.2 hheld))
      (fun _ h => by cases h) hstored, ?_⟩
    exact conflicts_move hc (kept_of_carried hkept.1) (fun _ h => by cases h) hi

theorem rely_of_env {w w' : World} {q : Call} {r : Except Thrown (Answer q)} (henv : env w q r w') :
    rely q r := by
  cases q with
  | accountAttachProviderAccount id pid status =>
    cases r with
    | ok account => exact (env_attach henv).1
    | error e => trivial
  | accountAttachLedgerAccounts id availableId =>
    cases r with
    | ok account => exact env_attachLedger henv
    | error e => trivial
  | _ => trivial

theorem quiet_next {q : Call} (r : Except Thrown (Answer q)) (hq : Quiet q) : next h q r = h := by
  cases h <;> cases q <;> first | exact hq.elim | rfl

/-- A step of one request keeps what holds of all of them. -/
theorem sound_call (hs : Sound request dto b g) (hc : Conflicts request b g) (hi : g i = some h) {q : Call}
    {r : Except Thrown (Answer q)} (hguar : guar request dto h q) (henv : bankEnv b q r b')
    (hex : Exclusive request dto b b' g i h (next h q r))
    (hfound : h = .running → ∀ id, next h q r = .named id → Answerable b g id) :
    Sound request dto b' (Function.update g i (some (next h q r))) ∧
      Conflicts request b' (Function.update g i (some (next h q r))) := by
  have hquiet : Quiet q → Sound request dto b' (Function.update g i (some (next h q r))) ∧
      Conflicts request b' (Function.update g i (some (next h q r))) := by
    intro hq
    rw [quiet_next r hq]
    exact sound_quiet hs hc hi (.inl hq) henv (fun _ h => h) (fun h => h) (fun _ h => h)
      fun id hid => hs.named i id (hid ▸ hi)
  cases h with
  | outside =>
    cases q with
    | idempotencyClaim claim => exact sound_claim hs hc hi hguar henv
    | _ => exact hguar.elim
  | conflicted recordId =>
    cases q with
    | now => exact hquiet trivial
    | idempotencyStealLease id leaseSeconds =>
      have hid : id = recordId := hguar
      subst hid
      exact sound_steal hs hc hi henv hex
    | _ => exact hguar.elim
  | running =>
    cases q with
    | accountFindByExternalId ext =>
      refine sound_quiet hs hc hi (.inr ⟨ext, rfl⟩) henv ?_ ?_ ?_ (hfound rfl)
      · intro x hx
        match r with
        | .ok (some account) => obtain hx | hx := hx <;> cases hx
        | .ok none => exact hx
        | .error e => exact hx
      · exact fun _ => trivial
      · intro recordId hx
        match r with
        | .ok (some account) => cases hx
        | .ok none => cases hx
        | .error e => cases hx
    | accountCreate record =>
      have hext : record.externalId = dto.externalId := hguar
      have hopen : b'.openings = b.openings := henv.2
      have hrecords := env_records rfl henv.1
      have hcarried : Carried (fun _ => False) b.world b'.world := .refl hrecords
      obtain ⟨⟨e, rfl⟩, hw⟩ | ⟨hnew, huniq, row, rfl, hid, hrow, hw⟩ := env_accountCreate henv.1
      · have hgrows : Grows b.world b'.world := fun x => by
          rw [hw]
          exact ⟨fun h => h, fun a ha => ⟨a, ha, rfl, fun h => h⟩⟩
        exact ⟨sound_keep hs hi hgrows hopen (fun _ h => h) (fun h => h)
          (fun ⟨k, record, hk, h⟩ => ⟨k, record, hrecords ▸ hk, h⟩) (fun _ h => by cases h)
          (stored_of_carried hs hcarried fun _ _ h => h.elim),
          conflicts_move hc (kept_of_carried hcarried) (fun _ h => .inl h) hi⟩
      · refine ⟨sound_draft hs hi (by rw [hid]; exact hnew) (hrow.trans hext) (fun ext he => ?_) hw hrecords
          hopen, conflicts_move hc (kept_of_carried hcarried) (fun _ h => by cases h) hi⟩
        exact huniq ext (hrow ▸ he)
    | now | emit _ | newId _ | providerRequire _ _ | ledgerOpenAccounts _ | accountAttachLedgerAccounts _ _ =>
      exact hquiet trivial
    | idempotencyRelease _ | idempotencyRenewLease _ _ | idempotencyComplete _ =>
      obtain hq | hq := hguar
      · exact hq.elim
      · exact sound_closing hs hc hi hq trivial henv hex
    | _ => exact (hguar.elim (fun h => h) fun h => h).elim
  | drafted id =>
    have hq : q = .providerCreateAccount id := hguar
    subst hq
    have hw : b'.world.accounts = b.world.accounts := (env_parties rfl henv.1).2
    have hrecords := env_records rfl henv.1
    have hcarried : Carried (fun _ => False) b.world b'.world := .refl hrecords
    have hopen : b'.openings = b.openings ∨ b'.openings = b.openings.insert id := by
      match r, henv.2 with
      | .ok _, h => exact .inr h
      | .error (.baas _), h => exact .inl h
      | .error (.outcomeUnknown _), h => exact h
      | .error (.failure _), h => exact h
    have hstage : next (.drafted id) (.providerCreateAccount id) r = .opened id ∨
        next (.drafted id) (.providerCreateAccount id) r = .ended := by
      cases r with
      | ok _ => exact .inl rfl
      | error _ => exact .inr rfl
    refine ⟨sound_open hs hi hw hrecords hopen hstage,
      conflicts_move hc (kept_of_carried hcarried) (fun recordId h => ?_) hi⟩
    obtain he | he := hstage <;> rw [he] at h <;> cases h
  | opened id =>
    obtain ⟨pid, status, rfl⟩ := hguar
    have hgrows : Grows b.world b'.world := grows_of_env (by simp) henv.1
    have hopen : b'.openings = b.openings := henv.2
    have hrecords := env_records rfl henv.1
    have hcarried : Carried (fun _ => False) b.world b'.world := .refl hrecords
    have hkeep : ∀ h', (∀ x, h' ≠ .drafted x ∧ h' ≠ .opened x) → ¬ Stage.mayOpen h' →
        (∀ x, h' ≠ .conflicted x) → (∀ x, h' = .named x → Linked b'.world x) →
        Sound request dto b' (Function.update g i (some h')) ∧
          Conflicts request b' (Function.update g i (some h')) :=
      fun h' hpath hmay hconf hnamed => ⟨sound_keep hs hi hgrows hopen
        (fun x hx => (hx.elim (hpath x).1 (hpath x).2).elim) (fun hm => absurd hm hmay)
        (fun ⟨k, record, hk, h⟩ => ⟨k, record, hrecords ▸ hk, h⟩) (fun x hx => .inr (hnamed x hx))
        (stored_of_carried hs hcarried fun _ _ h => h.elim),
        conflicts_move hc (kept_of_carried hcarried) (fun x hx => absurd hx (hconf x)) hi⟩
    cases r with
    | ok account =>
      refine hkeep _ (fun x => ⟨by simp [next], by simp [next]⟩) (fun h => h) (by simp [next]) fun x hx => ?_
      cases hx
      exact (env_attach henv.1).2
    | error e =>
      exact hkeep _ (fun x => ⟨by simp [next], by simp [next]⟩) (fun h => h)
        (by simp [next]) (by simp [next])
  | named id =>
    obtain hq | hq := hguar
    · exact hquiet hq
    · exact sound_closing hs hc hi hq trivial henv hex
  | ended => exact sound_closing hs hc hi hguar trivial henv hex

end BaasConnector.Accounts.Soundness
