import BaasConnector.Balance.Service

namespace BaasConnector.Balance.Reads

open BaasConnector.Balance.BypassRules BaasConnector.Balance.Service BaasConnector.Taxonomy.Errors

/-- A snapshot, with the times at which the provider call that it came from began
and ended. -/
structure Fetched where
  snapshot : ProviderBalanceSnapshot
  began : Nat
  ended : Nat
deriving DecidableEq, Repr

/-- The entry as the cache keeps it. -/
def plain (entry : CacheEntry Fetched) : CacheEntry ProviderBalanceSnapshot :=
  ⟨entry.value.snapshot, entry.asOf⟩

structure Slot where
  entry : CacheEntry Fetched
  expiresAt : Int
deriving DecidableEq, Repr

/-- What Redis holds for the account: the balance key, the tag set with that key
in it (and when it expires, if it does), and the lock of the single flight. -/
structure Redis where
  value : Option Slot := none
  tag : Option (Option Int) := none
  lock : Option Int := none
deriving DecidableEq, Repr

/-- What the store in one process holds, with the read whose work is in flight. -/
structure Memory where
  slot : Option Slot := none
  inFlight : Option Nat := none
deriving DecidableEq, Repr

/-- What becomes of a command sent to Redis: it runs and is answered, it runs and
its answer is lost, or it does not run. -/
inductive Reply
  | answered | unheard | failed
deriving DecidableEq, Repr

inductive Command
  | set | sadd | expire
deriving DecidableEq, Repr

inductive Origin
  | cache | provider
deriving DecidableEq, Repr

structure Answer where
  result : BalanceResult
  fetched : Fetched
  origin : Origin
deriving DecidableEq, Repr

/-- Where a read stands: between two of the awaited calls of `get`, of the single
flight that it runs in, or of the write to the cache. -/
inductive Phase
  | looking
  | deciding
  | flying
  | fetching (locked : Bool)
  | calling (locked : Bool) (began : Nat)
  | unlocking (outcome : Except Thrown Fetched)
  | sleeping (deadline : Int)
  | joining (owner : Nat)
  | storing (fresh : Fetched) (origin : Origin) (asOf : Int) (commands : List Command)
  | done (answer : Except Thrown Answer)
deriving DecidableEq

/-- The snapshot that a read has in hand. -/
def Phase.carried : Phase → Option Fetched
  | .unlocking (.ok fresh) => some fresh
  | .storing fresh _ _ _ => some fresh
  | _ => none

/-- The snapshot that a read has polled from the cache. -/
def Phase.polled : Phase → Option Fetched
  | .storing fresh .cache _ _ => some fresh
  | _ => none

def Phase.answer : Phase → Option Answer
  | .done (.ok answer) => some answer
  | _ => none

structure Read where
  process : Nat
  query : BalanceQuery
  authorizationPath : Bool
  lastEventAt : Option Int
  began : Nat
  cached : Option (CacheEntry Fetched) := none
  bypass : Option BypassReason := none
  phase : Phase := .looking
deriving DecidableEq

inductive Stage
  | reading
  | unlinking (hasKey : Bool)
  | ended (time : Nat)
deriving DecidableEq, Repr

def Stage.ending : Stage → Option Nat
  | .ended time => some time
  | _ => none

structure Invalidation where
  process : Nat
  began : Nat
  stage : Stage
deriving DecidableEq, Repr

/-- All reads and invalidations of one account on any number of processes. Reads
and invalidations are numbered as they start; `time` counts the actions. -/
structure State where
  time : Nat
  now : Int
  redis : Redis
  memories : List Memory
  reads : List Read
  invalidations : List Invalidation
deriving DecidableEq

/-- The next thing that happens to a read: an awaited call of it is answered, or
its code runs on. -/
inductive Move
  | lookUp (reply : Reply)
  | decide (openHighSeverity : Nat) (lastEventAt : Option Int)
  | enter (reply : Reply)
  | call
  | refuse (error : Thrown)
  | answer (reply : Except Thrown ProviderBalanceSnapshot)
  | unlock (reply : Reply)
  | poll (reply : Reply)
  | store (reply : Reply)
  | finish
deriving DecidableEq

inductive Action
  | start (process : Nat) (query : BalanceQuery) (authorizationPath : Bool) (lastEventAt : Option Int)
  | move (id : Nat) (move : Move)
  | invalidate (process : Nat)
  | erase (i : Nat) (reply : Reply)
  | tick (ms : Nat)
deriving DecidableEq

def singleFlightWaitMs : Int := 3000

def singleFlightLockMs : Int := 5000

section Stores

variable (config : Config) (s : State)

def Slot.lasting (now : Int) (slot : Slot) : Option Slot :=
  if now < slot.expiresAt then some slot else none

/-- The account's processes and the cache before any read, with whatever value
an earlier read has left. -/
def State.opened (time : Nat) (now : Int) (redis : Redis) (slots : List (Option Slot)) : State :=
  { time, now, redis, memories := slots.map fun slot => { slot }, reads := [], invalidations := [] }

def State.memory (process : Nat) : Memory := s.memories.getD process {}

def State.setMemory (process : Nat) (memory : Memory) : State :=
  { s with memories := s.memories.set process memory }

def State.setRead (id : Nat) (r : Read) : State := { s with reads := s.reads.set id r }

def State.setInvalidation (i : Nat) (invalidation : Invalidation) : State :=
  { s with invalidations := s.invalidations.set i invalidation }

/-- `get` of the store: a Redis that does not answer is a miss. -/
def State.get (process : Nat) (reply : Reply) : Option (CacheEntry Fetched) :=
  match config.store with
  | .redis => if reply = .answered then s.redis.value.map (·.entry) else none
  | .memory => (s.memory process).slot.map (·.entry)

/-- The commands that `set` sends. -/
def setCommands : List Command :=
  match config.store with
  | .redis => [.set, .sadd, .expire]
  | .memory => [.set]

def Redis.run (ttlSeconds now : Int) (entry : CacheEntry Fetched) (redis : Redis) : Command → Redis
  | .set => if 0 < ttlSeconds then { redis with value := some ⟨entry, now + ttlSeconds * 1000⟩ } else redis
  | .sadd => { redis with tag := redis.tag <|> some none }
  | .expire =>
    { redis with
      tag := redis.tag.bind fun _ => if 0 < ttlSeconds then
        some (some (now + ttlSeconds * 2 * 1000)) else none }

/-- The next command of `set`, on the store of the process. -/
def State.write (process : Nat) (reply : Reply) (entry : CacheEntry Fetched) (command : Command) : State :=
  match config.store with
  | .redis =>
    if reply = .failed then s
    else { s with redis := s.redis.run config.balanceCacheTtlSeconds s.now entry command }
  | .memory =>
    match command with
    | .set =>
      let slot : Slot := ⟨entry, s.now + config.balanceCacheTtlSeconds * 1000⟩
      s.setMemory process { s.memory process with slot := slot.lasting s.now }
    | _ => s

def Redis.expire (now : Int) (redis : Redis) : Redis :=
  { value := redis.value.bind (·.lasting now),
    tag := redis.tag.filter fun expiresAt => expiresAt.all fun t => now < t,
    lock := redis.lock.filter fun t => now < t }

def Memory.expire (now : Int) (memory : Memory) : Memory :=
  { memory with slot := memory.slot.bind (·.lasting now) }

def State.tick (ms : Nat) : State :=
  let now := s.now + ms
  { s with now, redis := s.redis.expire now, memories := s.memories.map (·.expire now) }

end Stores

section Step

variable (config : Config) (s : State)

/-- What `get` does when the single flight returns or throws. -/
def Read.land (r : Read) (origin : Origin) : Except Thrown Fetched → Read
  | .ok fresh =>
    { r with phase := .storing fresh origin (fresh.snapshot.asOf.getD s.now) (setCommands config) }
  | .error error =>
    let cached := r.cached.map plain
    { r with
      phase := .done do
        let result ← onProviderFailure config s.now r.query cached error
        match r.cached with
        | some entry => .ok ⟨result, entry.value, .cache⟩
        | none => .error error }

/-- The provider's reply lands in the read that called. In the memory store the
flight ends with it, and all that joined go on with the same outcome. -/
def State.land (id : Nat) (r : Read) (locked : Bool) (outcome : Except Thrown Fetched) : State :=
  match config.store with
  | .redis =>
    s.setRead id (if locked then { r with phase := .unlocking outcome }
      else r.land config s .provider outcome)
  | .memory =>
    { s with
      memories := s.memories.set r.process { s.memory r.process with inFlight := none },
      reads := s.reads.mapIdx fun j other =>
        if j = id ∨ other.phase = .joining id then other.land config s .provider outcome else other }

/-- The single flight of the store lets the read in. -/
def State.enter (id : Nat) (r : Read) (reply : Reply) : State :=
  match config.store with
  | .redis =>
    let held := s.redis.lock.isSome
    let redis := { s.redis with lock := s.redis.lock <|> some (s.now + singleFlightLockMs) }
    match reply with
    | .failed => s.setRead id { r with phase := .fetching false }
    | .unheard => { s.setRead id { r with phase := .fetching false } with redis }
    | .answered =>
      if held then s.setRead id { r with phase := .sleeping (s.now + singleFlightWaitMs) }
      else { s.setRead id { r with phase := .fetching true } with redis }
  | .memory =>
    match (s.memory r.process).inFlight with
    | some owner => s.setRead id { r with phase := .joining owner }
    | none =>
      (s.setRead id { r with phase := .fetching true }).setMemory r.process
        { s.memory r.process with inFlight := some id }

/-- What a move of a read does to it and to the store. -/
def advance (id : Nat) (r : Read) : Phase → Move → Option State
  | .looking, .lookUp reply =>
    some (s.setRead id { r with cached := s.get config r.process reply, phase := .deciding })
  | .deciding, .decide openHighSeverity lastEventAt =>
    let signals := defaultBalanceSignals openHighSeverity lastEventAt
    let bypass := bypassReason (bypassInput config s.now r.query r.authorizationPath r.lastEventAt
      (r.cached.map plain) signals)
    match r.cached, bypass with
    | some entry, none =>
      some (s.setRead id { r with
        phase := .done (.ok ⟨fromCache config s.now (plain entry), entry.value, .cache⟩) })
    | _, bypass => some (s.setRead id { r with bypass, phase := .flying })
  | .flying, .enter reply => some (s.enter config id r reply)
  | .fetching locked, .call => some (s.setRead id { r with phase := .calling locked s.time })
  | .fetching locked, .refuse error => some (s.land config id r locked (.error error))
  | .calling locked began, .answer reply =>
    some (s.land config id r locked (reply.map fun snapshot => ⟨snapshot, began, s.time⟩))
  | .unlocking outcome, .unlock reply =>
    let lock := if reply = .failed then s.redis.lock else none
    some { s.setRead id (r.land config s .provider outcome) with redis := { s.redis with lock } }
  | .sleeping deadline, .poll reply =>
    match s.get config r.process reply with
    | some entry => some (s.setRead id (r.land config s .cache (.ok entry.value)))
    | none =>
      if s.now < deadline then some s else some (s.setRead id { r with phase := .fetching false })
  | .storing fresh origin asOf (command :: commands), .store reply =>
    some ((s.write config r.process reply ⟨fresh, asOf⟩ command).setRead id
      { r with phase := .storing fresh origin asOf commands })
  | .storing fresh origin asOf [], .finish =>
    some (s.setRead id { r with
      phase := .done (.ok ⟨fromFlight config s.now fresh.snapshot asOf r.bypass, fresh, origin⟩) })
  | _, _ => none

/-- The next command of `invalidateTag` in Redis. -/
def undo (i : Nat) (invalidation : Invalidation) (reply : Reply) : Stage → Option State
  | .reading =>
    let stage := if reply = .answered then .unlinking s.redis.tag.isSome else .ended s.time
    some (s.setInvalidation i { invalidation with stage })
  | .unlinking hasKey =>
    let value := if hasKey then none else s.redis.value
    let redis := if reply = .failed then s.redis else { s.redis with value, tag := none }
    some { s.setInvalidation i { invalidation with stage := .ended s.time } with redis }
  | .ended _ => none

/-- `invalidateTag` starts; on the memory store it ends at once. -/
def State.invalidate (process : Nat) : State :=
  match config.store with
  | .redis => { s with invalidations := s.invalidations ++ [⟨process, s.time, .reading⟩] }
  | .memory =>
    { s.setMemory process { s.memory process with slot := none } with
      invalidations := s.invalidations ++ [⟨process, s.time, .ended s.time⟩] }

def next : Action → Option State
  | .start process query authorizationPath lastEventAt =>
    if process < s.memories.length then
      some { s with
        reads := s.reads ++ [{ process, query, authorizationPath, lastEventAt, began := s.time }] }
    else none
  | .move id move => s.reads[id]?.bind fun r => advance config s id r r.phase move
  | .invalidate process => if process < s.memories.length then some (s.invalidate config process) else none
  | .erase i reply =>
    match config.store with
    | .redis => s.invalidations[i]?.bind fun invalidation => undo s i invalidation reply invalidation.stage
    | .memory => none
  | .tick ms => some (s.tick ms)

def step (action : Action) : Option State :=
  (next config s action).map fun s' => { s' with time := s.time + 1 }

/-- The state after these actions, if they can be taken in this order. -/
def after (start : State) (actions : List Action) : Option State :=
  actions.foldl (fun s action => s.bind (step config · action)) (some start)

end Step

end BaasConnector.Balance.Reads
