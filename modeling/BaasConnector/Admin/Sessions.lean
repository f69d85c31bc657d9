import BaasConnector.Lib.History
import BaasConnector.Lib.Keyed
import Mathlib.Logic.Function.Basic
import Mathlib.Tactic.Common

namespace BaasConnector.Admin.Sessions

open BaasConnector.Lib.History BaasConnector.Lib.Keyed

structure RefreshToken where
  sessionId : String
  secret : String
deriving DecidableEq, Repr

/-- The session and the secret stand around the first dot. -/
def parseRefreshToken (value : String) : Option RefreshToken :=
  match value.toList.takeWhile (· ≠ '.'), value.toList.dropWhile (· ≠ '.') with
  | sessionId@(_ :: _), _ :: secret@(_ :: _) => some ⟨String.ofList sessionId, String.ofList secret⟩
  | _, _ => none

def formatRefreshToken (token : RefreshToken) : String := token.sessionId ++ "." ++ token.secret

structure SessionRecord where
  id : String
  userId : String
  refreshTokenHash : String
  expiresAt : Int
  revokedAt : Option Int
deriving DecidableEq, Repr

inductive SessionStore
  | prisma | memory
deriving DecidableEq, Repr

abbrev SessionRows := Rows String SessionRecord SessionRecord.id

namespace SessionRows

variable (sessions : SessionRows)

/-- One statement over the sessions that meet a condition. -/
def updateWhere (p : SessionRecord → Bool) (f : SessionRecord → SessionRecord)
    (hf : ∀ row, (f row).id = row.id) : SessionRows :=
  sessions.updateMany (fun row => if p row then f row else row) fun row => by
    by_cases h : p row = true
    · rw [if_pos h, hf]
    · rw [if_neg h]

/-- Both stores rotate the session when it is not revoked, whatever its hash is. -/
def rotate (id refreshTokenHash : String) (expiresAt : Int) : SessionRows :=
  sessions.updateWhere (fun row => decide (row.id = id ∧ row.revokedAt = none))
    (fun row => { row with refreshTokenHash, expiresAt }) fun _ => rfl

/-- The number of rows that the rotation found, as an answer. -/
def rotates (id : String) : Bool := ((sessions.get id).filter fun row => decide (row.revokedAt = none)).isSome

/-- The store in memory writes the instant again over a revoked session. -/
def revoke (store : SessionStore) (id : String) (now : Int) : SessionRows :=
  sessions.updateWhere (fun row => decide (row.id = id ∧ (store = .memory ∨ row.revokedAt = none)))
    (fun row => { row with revokedAt := some now }) fun _ => rfl

def revokeAllForUser (userId : String) (now : Int) : SessionRows :=
  sessions.updateWhere (fun row => decide (row.userId = userId ∧ row.revokedAt = none))
    (fun row => { row with revokedAt := some now }) fun _ => rfl

end SessionRows

/-- How far a call of `refresh` has come: waiting for the session, for the
revocation of the user's sessions, for the user, or for the rotation. -/
inductive Call
  | idle
  | presented (token : RefreshToken)
  | reused (userId : String) (now : Int)
  | matched (token : RefreshToken) (now : Int)
  | rotating (token : RefreshToken) (now : Int)
  | rejected
  | issued (token : RefreshToken)
deriving DecidableEq, Repr

structure State where
  sessions : SessionRows
  calls : Nat → Call
  exchanges : List (Nat × RefreshToken)

def State.initial : State := ⟨.empty, fun _ => .idle, []⟩

inductive Action
  | login (id userId secret : String) (expiresAt : Int)
  | present (call : Nat) (rawToken : String)
  | readSession (call : Nat) (now : Int)
  | revokeAll (call : Nat)
  | readUser (call : Nat) (active : Bool)
  | rotate (call : Nat) (secret : String)
  | logout (sessionId : String) (now : Int)
deriving DecidableEq, Repr

/-- The digest of the secrets, the store of the sessions and how long a refresh
token is good for. -/
structure Config where
  hashRefreshToken : String → String
  store : SessionStore
  refreshTokenTtlMs : Int

variable (config : Config)

namespace State

variable (s : State)

def enter (call : Nat) (phase : Call) : State := { s with calls := Function.update s.calls call phase }

def present (call : Nat) (rawToken : String) : State :=
  match s.calls call, parseRefreshToken rawToken with
  | .idle, some token => s.enter call (.presented token)
  | .idle, none => s.enter call .rejected
  | _, _ => s

/-- The session is read, and the presented secret compared with its hash. -/
def readSession (call : Nat) (now : Int) : State :=
  match s.calls call with
  | .presented token =>
    match s.sessions.get token.sessionId with
    | some session =>
      if session.revokedAt ≠ none ∨ session.expiresAt ≤ now then s.enter call .rejected
      else if config.hashRefreshToken token.secret = session.refreshTokenHash then
        s.enter call (.matched token now)
      else s.enter call (.reused session.userId now)
    | none => s.enter call .rejected
  | _ => s

def revokeAll (call : Nat) : State :=
  match s.calls call with
  | .reused userId now => { s.enter call .rejected with sessions := s.sessions.revokeAllForUser userId now }
  | _ => s

def readUser (call : Nat) (active : Bool) : State :=
  match s.calls call with
  | .matched token now => s.enter call (if active then .rotating token now else .rejected)
  | _ => s

def rotate (call : Nat) (secret : String) : State :=
  match s.calls call with
  | .rotating token now =>
    if s.sessions.rotates token.sessionId then
      { s.enter call (.issued token) with
        sessions := s.sessions.rotate token.sessionId (config.hashRefreshToken secret)
          (now + config.refreshTokenTtlMs)
        exchanges := s.exchanges ++ [(call, token)] }
    else s.enter call .rejected
  | _ => s

end State

def step (s : State) : Action → State
  | .login id userId secret expiresAt =>
    { s with sessions := s.sessions.createNew ⟨id, userId, config.hashRefreshToken secret, expiresAt, none⟩ }
  | .present call rawToken => s.present call rawToken
  | .readSession call now => s.readSession config call now
  | .revokeAll call => s.revokeAll call
  | .readUser call active => s.readUser call active
  | .rotate call secret => s.rotate config call secret
  | .logout sessionId now => { s with sessions := s.sessions.revoke config.store sessionId now }

def run (actions : List Action) : State := actions.foldl (step config) .initial

/-- The secret that an action mints. -/
def minted : Action → Option String
  | .login _ _ secret _ | .rotate _ secret => some secret
  | _ => none

/-- The secret that an action mints or presents. -/
def mentioned : Action → Option String
  | .present _ rawToken => (parseRefreshToken rawToken).map RefreshToken.secret
  | action => minted action

/-- A minted secret was neither minted nor presented before. -/
def Fresh (before : List Action) (action : Action) : Prop :=
  ∀ secret ∈ minted action, ∀ earlier ∈ before, mentioned earlier ≠ some secret

instance (before : List Action) (action : Action) : Decidable (Fresh before action) :=
  inferInstanceAs (Decidable (∀ secret ∈ minted action, ∀ earlier ∈ before, mentioned earlier ≠ some secret))

section Steps

variable {config} {s : State}

theorem get_updateWhere (sessions : SessionRows) {p : SessionRecord → Bool}
    {f : SessionRecord → SessionRecord}
    (hf : ∀ row, (f row).id = row.id) (id : String) :
    (sessions.updateWhere p f hf).get id = (sessions.get id).map fun row => if p row then f row else row :=
  Rows.get_updateMany _ _ _ _

theorem run_append (actions : List Action) (last : Action) :
    run config (actions ++ [last]) = step config (run config actions) last := by
  rw [run, List.foldl_append]
  rfl

@[simp] theorem enter_self (call : Nat) (phase : Call) : (s.enter call phase).calls call = phase :=
  Function.update_self ..

theorem enter_of_ne {call other : Nat} (h : other ≠ call) (phase : Call) :
    (s.enter call phase).calls other = s.calls other := Function.update_of_ne h ..

/-- What one action makes of the phase of a call. -/
inductive Moves (config : Config) (s : State) (call : Nat) : Action → Call → Prop
  | stays (action : Action) : Moves config s call action (s.calls call)
  | presents {rawToken : String} {token : RefreshToken} (hidle : s.calls call = .idle)
      (hparsed : parseRefreshToken rawToken = some token) :
      Moves config s call (.present call rawToken) (.presented token)
  | accepts {now : Int} {token : RefreshToken} {session : SessionRecord}
      (hcall : s.calls call = .presented token)
      (hsession : s.sessions.get token.sessionId = some session) (hlive : session.revokedAt = none)
      (hhash : config.hashRefreshToken token.secret = session.refreshTokenHash) :
      Moves config s call (.readSession call now) (.matched token now)
  | reuses {now : Int} {token : RefreshToken} (userId : String) (hcall : s.calls call = .presented token) :
      Moves config s call (.readSession call now) (.reused userId now)
  | reads {now : Int} {token : RefreshToken} (hcall : s.calls call = .matched token now) :
      Moves config s call (.readUser call true) (.rotating token now)
  | issues {now : Int} {token : RefreshToken} {secret : String} (hcall : s.calls call = .rotating token now)
      (hrotates : s.sessions.rotates token.sessionId = true) :
      Moves config s call (.rotate call secret) (.issued token)
  | revokes {userId : String} {now : Int} (hcall : s.calls call = .reused userId now) :
      Moves config s call (.revokeAll call) .rejected
  | rejects (action : Action) (hissued : ∀ token, s.calls call ≠ .issued token)
      (hreused : ∀ userId now, s.calls call ≠ .reused userId now) : Moves config s call action .rejected

theorem moves_step (action : Action) (call : Nat) :
    Moves config s call action ((step config s action).calls call) := by
  have hother : ∀ {c : Nat} (phase : Call), call ≠ c →
    Moves config s call action ((s.enter c phase).calls call) := by
    intro c phase hne
    rw [enter_of_ne hne]
    exact .stays action
  cases action with
  | login id userId secret expiresAt => exact .stays _
  | logout sessionId now => exact .stays _
  | present c rawToken =>
    simp only [step, State.present]
    split
    · next token hidle hparsed =>
      by_cases hne : call = c
      · subst hne
        rw [enter_self]
        exact .presents hidle hparsed
      · exact hother _ hne
    · next hidle _ =>
      by_cases hne : call = c
      · subst hne
        rw [enter_self]
        exact .rejects _ (by simp [hidle]) (by simp [hidle])
      · exact hother _ hne
    · exact .stays _
  | readSession c now =>
    simp only [step, State.readSession]
    split
    · next token hcall =>
      by_cases hne : call = c
      · subst hne
        split
        · next session hsession =>
          split
          · rw [enter_self]
            exact .rejects _ (by simp [hcall]) (by simp [hcall])
          · next hlive =>
            push Not at hlive
            split
            · next hhash =>
              rw [enter_self]
              exact .accepts hcall hsession hlive.1 hhash
            · rw [enter_self]
              exact .reuses _ hcall
        · rw [enter_self]
          exact .rejects _ (by simp [hcall]) (by simp [hcall])
      · split
        · split
          · exact hother _ hne
          · split <;> exact hother _ hne
        · exact hother _ hne
    · exact .stays _
  | revokeAll c =>
    simp only [step, State.revokeAll]
    split
    · next userId now hcall =>
      by_cases hne : call = c
      · subst hne
        simp only [enter_self]
        exact .revokes hcall
      · exact hother _ hne
    · exact .stays _
  | readUser c active =>
    simp only [step, State.readUser]
    split
    · next token now hcall =>
      by_cases hne : call = c
      · subst hne
        rw [enter_self]
        cases active with
        | true => exact .reads hcall
        | false => exact .rejects _ (by simp [hcall]) (by simp [hcall])
      · exact hother _ hne
    · exact .stays _
  | rotate c secret =>
    simp only [step, State.rotate]
    split
    · next token now hcall =>
      split
      · next hrotates =>
        by_cases hne : call = c
        · subst hne
          simp only [enter_self]
          exact .issues hcall hrotates
        · exact hother _ hne
      · by_cases hne : call = c
        · subst hne
          rw [enter_self]
          exact .rejects _ (by simp [hcall]) (by simp [hcall])
        · exact hother _ hne
    · exact .stays _

/-- What one action makes of a session: the user stays, a revocation stays, and
only a rotation gives another hash. -/
structure Lasts (config : Config) (s : State) (action : Action) (row row' : SessionRecord) : Prop where
  userId : row'.userId = row.userId
  revoked : row.revokedAt ≠ none → row'.revokedAt ≠ none
  hash : row'.refreshTokenHash = row.refreshTokenHash ∨ ∃ call secret token now,
    action = .rotate call secret ∧
    s.calls call = .rotating token now ∧ token.sessionId = row.id ∧ row.revokedAt = none ∧
    row'.refreshTokenHash = config.hashRefreshToken secret

theorem session_step (action : Action) {id : String} {row : SessionRecord}
    (h : s.sessions.get id = some row) :
    ∃ row', (step config s action).sessions.get id = some row' ∧ Lasts config s action row row' := by
  have hsame : ∃ row', s.sessions.get id = some row' ∧ Lasts config s action row row' :=
    ⟨row, h, rfl, fun hrevoked => hrevoked, .inl rfl⟩
  have hrevokes : ∀ (p : SessionRecord → Bool) (now : Int),
      ∃ row', (s.sessions.updateWhere p (fun row => { row with revokedAt := some now })
        fun _ => rfl).get id = some row' ∧
        Lasts config s action row row' := by
    intro p now
    rw [get_updateWhere, h, Option.map_some]
    refine ⟨_, rfl, ?_⟩
    split
    · exact ⟨rfl, fun _ => Option.some_ne_none _, .inl rfl⟩
    · exact ⟨rfl, fun hrevoked => hrevoked, .inl rfl⟩
  cases action with
  | login id' userId secret expiresAt =>
    exact ⟨row, Rows.get_createNew_of_some h, rfl, fun hrevoked => hrevoked, .inl rfl⟩
  | logout sessionId now => exact hrevokes _ now
  | present c rawToken =>
    simp only [step, State.present]
    split <;> exact hsame
  | readSession c now =>
    simp only [step, State.readSession]
    split
    · split
      · split
        · exact hsame
        · split <;> exact hsame
      · exact hsame
    · exact hsame
  | revokeAll c =>
    simp only [step, State.revokeAll]
    split
    · exact hrevokes _ _
    · exact hsame
  | readUser c active =>
    simp only [step, State.readUser]
    split <;> exact hsame
  | rotate c secret =>
    simp only [step, State.rotate]
    split
    · next token now hcall =>
      split
      · simp only [SessionRows.rotate, get_updateWhere, h, Option.map_some]
        refine ⟨_, rfl, ?_⟩
        split
        · next hp =>
          rw [decide_eq_true_eq] at hp
          exact ⟨rfl, fun hrevoked => hrevoked,
            .inr ⟨c, secret, token, now, rfl, hcall, hp.1.symm, hp.2, rfl⟩⟩
        · exact ⟨rfl, fun hrevoked => hrevoked, .inl rfl⟩
      · exact hsame
    · exact hsame

theorem rotates_iff {sessions : SessionRows} {id : String} :
    sessions.rotates id = true ↔ ∃ row, sessions.get id = some row ∧ row.revokedAt = none := by
  rw [SessionRows.rotates, Option.isSome_iff_exists]
  simp only [Option.filter_eq_some_iff, decide_eq_true_eq]

/-- A rotation that finds its session exchanges the token of its call. -/
theorem step_rotate {call : Nat} {token : RefreshToken} {now : Int} {secret : String} {row : SessionRecord}
    (hcall : s.calls call = .rotating token now) (hrow : s.sessions.get token.sessionId = some row)
    (hlive : row.revokedAt = none) :
    step config s (.rotate call secret) = { s.enter call (.issued token) with
      sessions := s.sessions.rotate token.sessionId (config.hashRefreshToken secret)
        (now + config.refreshTokenTtlMs)
      exchanges := s.exchanges ++ [(call, token)] } := by
  have hrotates := rotates_iff.mpr ⟨row, hrow, hlive⟩
  simp only [step, State.rotate, hcall, hrotates, if_true]

theorem get_rotate {sessions : SessionRows} {id refreshTokenHash : String}
    {expiresAt : Int} {row : SessionRecord}
    (hrow : sessions.get id = some row) (hlive : row.revokedAt = none) :
    (sessions.rotate id refreshTokenHash expiresAt).get id =
      some { row with refreshTokenHash, expiresAt } := by
  have hid := Rows.key_of_get hrow
  rw [SessionRows.rotate, get_updateWhere, hrow, Option.map_some, if_pos (by simp [hid, hlive])]

theorem get_revokeAll {sessions : SessionRows} {id userId : String} {now : Int} {row : SessionRecord}
    (hrow : sessions.get id = some row) (huser : row.userId = userId) :
    ∃ later, (sessions.revokeAllForUser userId now).get id = some later ∧ later.revokedAt ≠ none := by
  rw [SessionRows.revokeAllForUser, get_updateWhere, hrow, Option.map_some]
  refine ⟨_, rfl, ?_⟩
  split
  · exact Option.some_ne_none _
  · next hp =>
    intro hlive
    exact hp (by simp [huser, hlive])

/-- Only a rotation that finds its session exchanges a token. -/
theorem exchanges_step (action : Action) :
    (step config s action).exchanges = s.exchanges ∨ ∃ call secret token now row,
      action = .rotate call secret ∧
      s.calls call = .rotating token now ∧ s.sessions.get token.sessionId = some row ∧ row.revokedAt = none ∧
      (step config s action).calls call = .issued token ∧
      (step config s action).exchanges = s.exchanges ++ [(call, token)] := by
  cases action with
  | login id' userId secret expiresAt => exact .inl rfl
  | logout sessionId now => exact .inl rfl
  | present c rawToken =>
    simp only [step, State.present]
    split <;> exact .inl rfl
  | readSession c now =>
    simp only [step, State.readSession]
    split
    · split
      · split
        · exact .inl rfl
        · split <;> exact .inl rfl
      · exact .inl rfl
    · exact .inl rfl
  | revokeAll c =>
    simp only [step, State.revokeAll]
    split <;> exact .inl rfl
  | readUser c active =>
    simp only [step, State.readUser]
    split <;> exact .inl rfl
  | rotate c secret =>
    simp only [step, State.rotate]
    split
    · next token now hcall =>
      split
      · next hrotates =>
        obtain ⟨row, hrow, hlive⟩ := rotates_iff.mp hrotates
        exact .inr ⟨c, secret, token, now, row, rfl, hcall, hrow, hlive, enter_self c _, rfl⟩
      · exact .inl rfl
    · exact .inl rfl

end Steps

end BaasConnector.Admin.Sessions
