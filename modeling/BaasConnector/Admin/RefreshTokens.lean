import BaasConnector.Admin.Sessions

namespace BaasConnector.Admin.RefreshTokens

open BaasConnector.Lib.History BaasConnector.Lib.Keyed BaasConnector.Admin.Sessions

variable (config : Config)

/-- The rotation finds the hash that its call has read. -/
def NotStale (before : List Action) : Action → Prop
  | .rotate call _ => ∀ token now session, (run config before).calls call = .rotating token now →
      (run config before).sessions.get token.sessionId = some session → session.revokedAt = none →
        session.refreshTokenHash = config.hashRefreshToken token.secret
  | _ => True

def NeverIssued (call : Nat) (s : State) : Prop := ∀ token, (call, token) ∉ s.exchanges

/-- What the refresh tokens promise of a run. -/
structure Sound (actions : List Action) : Prop where
  once : ((run config actions).exchanges.map Prod.snd).Nodup
  revoked : ∀ before after call rawToken token session, actions = before ++ .present call rawToken :: after →
    (run config before).calls call = .idle → parseRefreshToken rawToken = some token →
    (run config before).sessions.get token.sessionId = some session → session.revokedAt ≠ none →
      NeverIssued call (run config actions)
  superseded : ∀ before after call rawToken token session, actions = before ++
    .present call rawToken :: after →
    (run config before).calls call = .idle → parseRefreshToken rawToken = some token →
    (run config before).sessions.get token.sessionId = some session →
    config.hashRefreshToken token.secret ≠ session.refreshTokenHash → NeverIssued call (run config actions)
  reuse : ∀ before after call now token session, actions = before ++ .readSession call now :: after →
    (run config before).calls call = .presented token →
    (run config before).sessions.get token.sessionId = some session → session.revokedAt = none →
    now < session.expiresAt → config.hashRefreshToken token.secret ≠ session.refreshTokenHash →
      NeverIssued call (run config actions) ∧
      ((run config actions).calls call = .rejected →
        ∀ id other, (run config before).sessions.get id = some other →
        other.userId = session.userId → ∃ later, (run config actions).sessions.get id = some later ∧
          later.revokedAt ≠ none)

variable {config} {actions : List Action} {s : State} {action : Action} {call : Nat} {phase : Call}
  {token : RefreshToken}

theorem Moves.issued (h : Moves config s call action phase) (hissued : s.calls call = .issued token) :
    phase = .issued token := by
  cases h with
  | stays => exact hissued
  | presents hidle => simp [hissued] at hidle
  | accepts hcall => simp [hissued] at hcall
  | reuses userId hcall => simp [hissued] at hcall
  | reads hcall => simp [hissued] at hcall
  | issues hcall => simp [hissued] at hcall
  | revokes hcall => simp [hissued] at hcall
  | rejects action hnot => exact absurd hissued (hnot token)

/-- Who has exchanged a token has come to its end. -/
theorem run_issued (h : (call, token) ∈ (run config actions).exchanges) :
    (run config actions).calls call = .issued token := by
  induction actions using List.reverseRecOn with
  | nil => cases h
  | append_singleton actions last ih =>
    rw [run_append] at h ⊢
    have hmoves := @moves_step config (run config actions) last call
    obtain hsame | ⟨c, secret, t, now, row, _, _, _, _, hissued, hnew⟩ :=
      @exchanges_step config (run config actions) last
    · rw [hsame] at h
      exact Moves.issued hmoves (ih h)
    · rw [hnew, List.mem_append, List.mem_singleton, Prod.mk.injEq] at h
      obtain hold | ⟨rfl, rfl⟩ := h
      · exact Moves.issued hmoves (ih hold)
      · exact hissued

theorem neverIssued_of_phase (h : ∀ token, (run config actions).calls call ≠ .issued token) :
    NeverIssued call (run config actions) := fun token hmem => h token (run_issued hmem)

def tokenOf : Call → Option RefreshToken
  | .presented token | .matched token _ | .rotating token _ | .issued token => some token
  | _ => none

theorem Moves.tokenOf (h : Moves config s call action phase) (ht : tokenOf phase = some token) :
    tokenOf (s.calls call) = some token ∨
      ∃ rawToken, action = .present call rawToken ∧ parseRefreshToken rawToken = some token := by
  cases h with
  | stays => exact .inl ht
  | presents hidle hparsed =>
    obtain rfl := Option.some.inj ht
    exact .inr ⟨_, rfl, hparsed⟩
  | accepts hcall => exact .inl (by rw [hcall]; exact ht)
  | reuses userId hcall => cases ht
  | reads hcall => exact .inl (by rw [hcall]; exact ht)
  | issues hcall => exact .inl (by rw [hcall]; exact ht)
  | revokes hcall => cases ht
  | rejects => cases ht

/-- The tokens that calls hold have been presented. -/
theorem run_mentioned (h : tokenOf ((run config actions).calls call) = some token) :
    ∃ earlier ∈ actions, mentioned earlier = some token.secret := by
  induction actions using List.reverseRecOn with
  | nil => cases h
  | append_singleton actions last ih =>
    rw [run_append] at h
    obtain hold | ⟨rawToken, rfl, hparsed⟩ := Moves.tokenOf (moves_step last call) h
    · obtain ⟨earlier, hmem, hmentioned⟩ := ih hold
      exact ⟨earlier, List.mem_append_left _ hmem, hmentioned⟩
    · exact ⟨_, List.mem_append_right _ (List.mem_singleton.mpr rfl), by simp [mentioned, hparsed]⟩

/-- A call whose token its session does not take any more. -/
structure Doomed (config : Config) (token : RefreshToken) (call : Nat) (s : State) : Prop where
  refused : ∃ session, s.sessions.get token.sessionId = some session ∧
    (session.revokedAt ≠ none ∨ config.hashRefreshToken token.secret ≠ session.refreshTokenHash)
  phase : s.calls call = .presented token ∨ s.calls call = .rejected ∨ ∃ userId now,
    s.calls call = .reused userId now

theorem Doomed.step (hinj : Function.Injective config.hashRefreshToken) (h : Doomed config token call s)
    (hfresh : minted action ≠ some token.secret) : Doomed config token call (step config s action) := by
  obtain ⟨⟨session, hsession, hrefused⟩, hphase⟩ := h
  constructor
  · obtain ⟨session', hsession', hlasts⟩ := @session_step config _ action _ _ hsession
    refine ⟨session', hsession', ?_⟩
    obtain hrevoked | hhash := hrefused
    · exact .inl (hlasts.revoked hrevoked)
    · obtain hsame | ⟨c, secret, t, now, rfl, _, _, _, hnew⟩ := hlasts.hash
      · exact .inr (by rw [hsame]; exact hhash)
      · refine .inr fun heq => hfresh ?_
        rw [hnew] at heq
        rw [minted, hinj heq]
  · have hmoves := @moves_step config s action call
    generalize (Sessions.step config s action).calls call = after at hmoves
    cases hmoves with
    | stays => exact hphase
    | presents hidle => simp [hidle] at hphase
    | @accepts now t session' hcall hsession' hlive hhash =>
      obtain heq : t = token := by simpa [hcall] using hphase
      subst heq
      obtain rfl := Option.some.inj (hsession.symm.trans hsession')
      obtain hrevoked | hne := hrefused
      · exact absurd hlive hrevoked
      · exact absurd hhash hne
    | reuses userId hcall => exact .inr (.inr ⟨_, _, rfl⟩)
    | reads hcall => simp [hcall] at hphase
    | issues hcall => simp [hcall] at hphase
    | revokes => exact .inr (.inl rfl)
    | rejects => exact .inr (.inl rfl)

theorem Doomed.lasts (hinj : Function.Injective config.hashRefreshToken) {before after : List Action}
    (hfresh : Always Fresh (before ++ after))
    (hmentioned : ∃ earlier ∈ before, mentioned earlier = some token.secret)
    (h : Doomed config token call (run config before)) :
    Doomed config token call (run config (before ++ after)) := by
  induction after using List.reverseRecOn with
  | nil => rwa [List.append_nil]
  | append_singleton after last ih =>
    rw [← List.append_assoc] at hfresh ⊢
    obtain ⟨hbefore, hlast⟩ := (always_append last).mp hfresh
    rw [run_append]
    obtain ⟨earlier, hmem, heq⟩ := hmentioned
    exact (ih hbefore).step hinj fun hminted => hlast _ hminted earlier (List.mem_append_left _ hmem) heq

theorem Doomed.neverIssued (h : Doomed config token call (run config actions)) :
    NeverIssued call (run config actions) := by
  refine neverIssued_of_phase fun t ht => ?_
  have hphase := h.phase
  simp [ht] at hphase

/-- Until a reused token's call has ended it waits for the revocation, and from
then on the sessions of the user are revoked. -/
def Revoking (userId : String) (ids : Set String) (call : Nat) (s : State) : Prop :=
  (∃ now, s.calls call = .reused userId now ∧ ∀ id ∈ ids, ∃ row, s.sessions.get id = some row ∧
    row.userId = userId) ∨
    (s.calls call = .rejected ∧ ∀ id ∈ ids, ∃ row, s.sessions.get id = some row ∧ row.revokedAt ≠ none)

theorem Revoking.step {userId : String} {ids : Set String}
    (h : Revoking userId ids call s) (action : Action) :
    Revoking userId ids call (step config s action) := by
  have hmoves := @moves_step config s action call
  obtain ⟨now, hcall, hrows⟩ | ⟨hcall, hrows⟩ := h
  · have hkept : ∀ id ∈ ids, ∃ row, (Sessions.step config s action).sessions.get id = some row ∧
      row.userId = userId := by
      intro id hid
      obtain ⟨row, hrow, huser⟩ := hrows id hid
      obtain ⟨row', hrow', hlasts⟩ := @session_step config _ action _ _ hrow
      exact ⟨row', hrow', hlasts.userId.trans huser⟩
    generalize hafter : (Sessions.step config s action).calls call = after at hmoves
    cases hmoves with
    | stays => exact .inl ⟨now, hafter.trans hcall, hkept⟩
    | presents hidle => simp [hcall] at hidle
    | accepts hpresented => simp [hcall] at hpresented
    | reuses _ hpresented => simp [hcall] at hpresented
    | reads hmatched => simp [hcall] at hmatched
    | issues hrotating => simp [hcall] at hrotating
    | revokes _ =>
      refine .inr ⟨hafter, fun id hid => ?_⟩
      obtain ⟨row, hrow, huser⟩ := hrows id hid
      simp only [Sessions.step, State.revokeAll, hcall]
      exact get_revokeAll hrow huser
    | rejects _ _ hreused => exact absurd hcall (hreused userId now)
  · refine .inr ⟨?_, fun id hid => ?_⟩
    · generalize (Sessions.step config s action).calls call = after at hmoves
      cases hmoves with
      | stays => exact hcall
      | presents hidle => simp [hcall] at hidle
      | accepts hpresented => simp [hcall] at hpresented
      | reuses _ hpresented => simp [hcall] at hpresented
      | reads hmatched => simp [hcall] at hmatched
      | issues hrotating => simp [hcall] at hrotating
      | revokes => rfl
      | rejects => rfl
    · obtain ⟨row, hrow, hrevoked⟩ := hrows id hid
      obtain ⟨row', hrow', hlasts⟩ := @session_step config _ action _ _ hrow
      exact ⟨row', hrow', hlasts.revoked hrevoked⟩

theorem Revoking.lasts {userId : String} {ids : Set String} {before : List Action}
    (h : Revoking userId ids call (run config before)) (after : List Action) :
    Revoking userId ids call (run config (before ++ after)) := by
  induction after using List.reverseRecOn with
  | nil => rwa [List.append_nil]
  | append_singleton after last ih =>
    rw [← List.append_assoc, run_append]
    exact ih.step last

theorem revoked_never_issued (hinj : Function.Injective config.hashRefreshToken)
    (hfresh : Always Fresh actions)
    {before after : List Action} {rawToken : String} {session : SessionRecord}
    (hsplit : actions = before ++ .present call rawToken :: after)
    (hidle : (run config before).calls call = .idle)
    (hparsed : parseRefreshToken rawToken = some token)
    (hsession : (run config before).sessions.get token.sessionId = some session)
    (hrefused : session.revokedAt ≠ none ∨ config.hashRefreshToken token.secret ≠ session.refreshTokenHash) :
    NeverIssued call (run config actions) := by
  rw [List.append_cons] at hsplit
  subst hsplit
  have hstart : step config (run config before) (.present call rawToken) =
      (run config before).enter call (.presented token) := by
    simp only [step, State.present, hidle, hparsed]
  have hdoomed : Doomed config token call (run config (before ++ [.present call rawToken])) := by
    rw [run_append, hstart]
    exact ⟨⟨session, hsession, hrefused⟩, .inl (enter_self call _)⟩
  refine (hdoomed.lasts hinj hfresh ⟨.present call rawToken, by simp, ?_⟩).neverIssued
  simp [mentioned, hparsed]

theorem reuse_revokes (hinj : Function.Injective config.hashRefreshToken) (hfresh : Always Fresh actions)
    {before after : List Action} {now : Int} {session : SessionRecord}
    (hsplit : actions = before ++ .readSession call now :: after)
    (hcall : (run config before).calls call = .presented token)
    (hsession : (run config before).sessions.get token.sessionId = some session)
    (hlive : session.revokedAt = none)
    (hnow : now < session.expiresAt)
    (hhash : config.hashRefreshToken token.secret ≠ session.refreshTokenHash) :
    NeverIssued call (run config actions) ∧ ((run config actions).calls call = .rejected →
      ∀ id other, (run config before).sessions.get id = some other → other.userId = session.userId →
        ∃ later, (run config actions).sessions.get id = some later ∧ later.revokedAt ≠ none) := by
  rw [List.append_cons] at hsplit
  subst hsplit
  have hread : step config (run config before) (.readSession call now) =
      (run config before).enter call (.reused session.userId now) := by
    simp only [step, State.readSession, hcall, hsession]
    rw [if_neg (by simp [hlive, hnow]), if_neg hhash]
  have hdoomed : Doomed config token call (run config (before ++ [.readSession call now])) := by
    rw [run_append, hread]
    exact ⟨⟨session, hsession, .inr hhash⟩, .inr (.inr ⟨_, _, enter_self call _⟩)⟩
  have hrevoking : Revoking session.userId
      {id | ∃ other, (run config before).sessions.get id = some other ∧ other.userId = session.userId} call
      (run config (before ++ [.readSession call now])) := by
    rw [run_append, hread]
    exact .inl ⟨now, enter_self call _, fun id hid => hid⟩
  obtain ⟨earlier, hmem, hmentioned⟩ := @run_mentioned config _ _ token (by rw [hcall]; rfl)
  refine ⟨(hdoomed.lasts hinj hfresh ⟨earlier, List.mem_append_left _ hmem, hmentioned⟩).neverIssued, ?_⟩
  intro hrejected id other hother huser
  obtain ⟨now', hreused, _⟩ | ⟨_, hrevoked⟩ := hrevoking.lasts after
  · rw [hrejected] at hreused
    cases hreused
  · exact hrevoked id ⟨other, hother, huser⟩

/-- The session of an exchanged token takes another one. -/
theorem exchanged_superseded (hinj : Function.Injective config.hashRefreshToken)
    (hfresh : Always Fresh actions)
    (h : (call, token) ∈ (run config actions).exchanges) :
    ∃ session, (run config actions).sessions.get token.sessionId = some session ∧
      session.refreshTokenHash ≠ config.hashRefreshToken token.secret := by
  induction actions using List.reverseRecOn with
  | nil => cases h
  | append_singleton actions last ih =>
    obtain ⟨hbefore, hlast⟩ := (always_append last).mp hfresh
    have hnew : ∀ c t secret, tokenOf ((run config actions).calls c) = some t → minted last = some secret →
        config.hashRefreshToken secret ≠ config.hashRefreshToken t.secret := by
      intro c t secret ht hminted heq
      obtain ⟨earlier, hmem, hmentioned⟩ := run_mentioned ht
      exact hlast secret hminted earlier hmem (hinj heq ▸ hmentioned)
    have hold : (call, token) ∈ (run config actions).exchanges →
        ∃ session, (step config (run config actions) last).sessions.get token.sessionId = some session ∧
          session.refreshTokenHash ≠ config.hashRefreshToken token.secret := by
      intro hmem
      obtain ⟨session, hsession, hhash⟩ := ih hbefore hmem
      obtain ⟨session', hsession', hlasts⟩ := @session_step config _ last _ _ hsession
      refine ⟨session', hsession', ?_⟩
      obtain hsame | ⟨c, secret, t, now, rfl, _, _, _, hrotated⟩ := hlasts.hash
      · rw [hsame]
        exact hhash
      · rw [hrotated]
        exact hnew call token secret (by rw [run_issued hmem]; rfl) rfl
    rw [run_append] at h ⊢
    obtain hsame | ⟨c, secret, t, now, row, rfl, hcall, hrow, hlive, _, happended⟩ :=
      @exchanges_step config (run config actions) last
    · exact hold (hsame ▸ h)
    · rw [happended, List.mem_append, List.mem_singleton, Prod.mk.injEq] at h
      obtain hmem | ⟨rfl, rfl⟩ := h
      · exact hold hmem
      · rw [step_rotate hcall hrow hlive]
        exact ⟨_, get_rotate hrow hlive, hnew call token secret (by rw [hcall]; rfl) rfl⟩

/-- Without a stale rotation no token is exchanged twice. -/
theorem exchanged_once (hinj : Function.Injective config.hashRefreshToken) (hfresh : Always Fresh actions)
    (hstale : Always (NotStale config) actions) : ((run config actions).exchanges.map Prod.snd).Nodup := by
  induction actions using List.reverseRecOn with
  | nil => exact List.nodup_nil
  | append_singleton actions last ih =>
    obtain ⟨hbefore, hlast⟩ := (always_append last).mp hfresh
    obtain ⟨hstale', hstaleLast⟩ := (always_append last).mp hstale
    have hnodup := ih hbefore hstale'
    rw [run_append]
    obtain hsame | ⟨c, secret, t, now, row, rfl, hcall, hrow, hlive, _, happended⟩ :=
      @exchanges_step config (run config actions) last
    · rwa [hsame]
    · rw [happended, List.map_append, List.map_singleton, ← List.concat_eq_append]
      refine hnodup.concat fun hmem => ?_
      obtain ⟨⟨c', t'⟩, hmem', rfl⟩ := List.mem_map.mp hmem
      obtain ⟨session, hsession, hhash⟩ := exchanged_superseded hinj hbefore hmem'
      exact hhash (hstaleLast _ now session hcall hsession
        (Option.some.inj (hrow.symm.trans hsession) ▸ hlive))

def acceptedOf : Call → Option RefreshToken
  | .matched token _ | .rotating token _ => some token
  | _ => none

theorem Moves.acceptedOf (h : Moves config s call action phase) (ht : acceptedOf phase = some token) :
    acceptedOf (s.calls call) = some token ∨ ∃ now session, action = .readSession call now ∧
      s.sessions.get token.sessionId = some session ∧
      config.hashRefreshToken token.secret = session.refreshTokenHash := by
  cases h with
  | stays => exact .inl ht
  | presents hidle => cases ht
  | accepts hcall hsession hlive hhash =>
    obtain rfl := Option.some.inj ht
    exact .inr ⟨_, _, rfl, hsession, hhash⟩
  | reuses userId hcall => cases ht
  | reads hcall => exact .inl (by rw [hcall]; exact ht)
  | issues hcall => cases ht
  | revokes hcall => cases ht
  | rejects => cases ht

/-- Without a stale rotation an accepted token is its session's own, or has been
exchanged by another call. -/
theorem accepted_current (hinj : Function.Injective config.hashRefreshToken)
    (hstale : Always (NotStale config) actions)
    (h : acceptedOf ((run config actions).calls call) = some token) :
    ∃ session, (run config actions).sessions.get token.sessionId = some session ∧
      (session.refreshTokenHash = config.hashRefreshToken token.secret ∨
        token ∈ (run config actions).exchanges.map Prod.snd) := by
  induction actions using List.reverseRecOn with
  | nil => cases h
  | append_singleton actions last ih =>
    obtain ⟨hbefore, hlast⟩ := (always_append last).mp hstale
    rw [run_append] at h ⊢
    obtain hold | ⟨now, session, rfl, hsession, hhash⟩ := Moves.acceptedOf (moves_step last call) h
    · obtain ⟨session, hsession, hcurrent⟩ := ih hbefore hold
      obtain ⟨session', hsession', hlasts⟩ := @session_step config _ last _ _ hsession
      refine ⟨session', hsession', ?_⟩
      have hkept : token ∈ (run config actions).exchanges.map Prod.snd →
          token ∈ (step config (run config actions) last).exchanges.map Prod.snd := by
        intro hmem
        obtain hsame | ⟨c, secret, t, now, row, _, _, _, _, _, happended⟩ :=
          @exchanges_step config (run config actions) last
        · rwa [hsame]
        · rw [happended, List.map_append]
          exact List.mem_append_left _ hmem
      obtain hown | hexchanged := hcurrent
      · obtain hsame | ⟨c, secret, t, now, rfl, hcall, hid, hlive, _⟩ := hlasts.hash
        · exact .inl (hsame.trans hown)
        · have hid' : t.sessionId = token.sessionId := hid.trans (Rows.key_of_get hsession)
          have hrow : (run config actions).sessions.get t.sessionId = some session := hid' ▸ hsession
          have hsecret := hinj ((hlast t now session hcall hrow hlive).symm.trans hown)
          have heq : t = token := by
            obtain ⟨_, _⟩ := t
            obtain ⟨_, _⟩ := token
            exact congrArg₂ RefreshToken.mk hid' hsecret
          rw [step_rotate hcall hrow hlive]
          exact .inr (by simp [heq])
      · exact .inr (hkept hexchanged)
    · obtain ⟨session', hsession', hlasts⟩ := @session_step config _ (.readSession call now) _ _ hsession
      refine ⟨session', hsession', .inl ?_⟩
      obtain hsame | ⟨c, secret, t, now', hrotate, _⟩ := hlasts.hash
      · exact hsame.trans hhash.symm
      · cases hrotate

/-- A stale rotation exchanges a token that has been exchanged before. -/
theorem notStale_of_once (hinj : Function.Injective config.hashRefreshToken)
    (hnodup : ((run config actions).exchanges.map Prod.snd).Nodup) : Always (NotStale config) actions := by
  induction actions using List.reverseRecOn with
  | nil => exact always_nil
  | append_singleton actions last ih =>
    rw [run_append] at hnodup
    have hprefix : ((run config actions).exchanges.map Prod.snd).Nodup := by
      obtain hsame | ⟨c, secret, t, now, row, _, _, _, _, _, happended⟩ :=
        @exchanges_step config (run config actions) last
      · rwa [hsame] at hnodup
      · rw [happended, List.map_append] at hnodup
        exact hnodup.of_append_left
    have hstale := ih hprefix
    refine (always_append last).mpr ⟨hstale, ?_⟩
    cases last with
    | rotate call secret =>
      intro token now session hcall hsession hlive
      obtain ⟨session', hsession', hcurrent⟩ :=
        @accepted_current config _ call token hinj hstale (by rw [hcall]; rfl)
      obtain rfl := Option.some.inj (hsession.symm.trans hsession')
      refine hcurrent.resolve_right fun hmem => ?_
      rw [step_rotate hcall hsession hlive, List.map_append, List.map_singleton, List.nodup_append] at hnodup
      exact hnodup.2.2 token hmem token (List.mem_singleton.mpr rfl) rfl
    | _ => trivial

/-- In every run the refresh tokens keep their promises exactly when every rotation
of a live session finds the hash that its call has read. -/
theorem refresh_sound_iff (hinj : Function.Injective config.hashRefreshToken)
    (hfresh : Always Fresh actions) :
    Sound config actions ↔ Always (NotStale config) actions := by
  constructor
  · intro h
    exact notStale_of_once hinj h.once
  · intro hstale
    constructor
    case once => exact exchanged_once hinj hfresh hstale
    case revoked =>
      intro before after call rawToken token session hsplit hidle hparsed hsession hrevoked
      exact revoked_never_issued hinj hfresh hsplit hidle hparsed hsession (.inl hrevoked)
    case superseded =>
      intro before after call rawToken token session hsplit hidle hparsed hsession hhash
      exact revoked_never_issued hinj hfresh hsplit hidle hparsed hsession (.inr hhash)
    case reuse =>
      intro before after call now token session hsplit hcall hsession hlive hnow hhash
      exact reuse_revokes hinj hfresh hsplit hcall hsession hlive hnow hhash

section Sample

def sampleConfig (store : SessionStore) : Config := ⟨id, store, 1000⟩

/-- Two calls read the session of one token before either of them rotates it. -/
def twoTabs : List Action :=
  [.login "s" "u" "a" 10, .present 0 "s.a", .present 1 "s.a", .readSession 0 0,
    .readSession 1 0, .readUser 0 true,
    .readUser 1 true, .rotate 0 "b", .rotate 1 "c"]

theorem refresh_sound_iff_two_tabs :
    Sound (sampleConfig .prisma) twoTabs ↔ Always (NotStale (sampleConfig .prisma)) twoTabs :=
  refresh_sound_iff Function.injective_id (by decide)

theorem two_tabs_exchange_one_token :
    Always Fresh twoTabs ∧ ¬ Sound (sampleConfig .prisma) twoTabs ∧
    ¬ Sound (sampleConfig .memory) twoTabs := by
  refine ⟨by decide, fun h => ?_, fun h => ?_⟩
  · exact absurd h.once (by decide)
  · exact absurd h.once (by decide)

end Sample

end BaasConnector.Admin.RefreshTokens
