import LordsPot.Megapot.Epoch
import LordsPot.Program.Succeeds

/-!
# The epoch transition

`transitionLoop`, the catch-up at boot and the pause cache as the steps between their awaits, over
the program, Redis, Postgres and Megapot's active round. Processes are started by timers, heartbeats
and boots; each can die at any await, and a call can take effect although its answer is lost. A
transaction that was sent lands at any later time or never, and is executed with the state of the
program at that time. Users and the admin's scripts use the program too.
-/

namespace LordsPot.Megapot

open Transition
open Program (Pubkey LordsPotState Instruction ProgramError Chain)

def PRE_EMPTIVE_BUFFER_MS : Nat := (5 * 60 + 60) * 1000

/-- The `EX` of the transition lock. -/
def TRANSITION_LOCK_MS : Nat := 600 * 1000

/-- How long every pass of the wait loop sleeps at its end, the last one too. -/
def POLL_DELAY_MS : Nat := 10000

/-! ## Rounds -/

structure MaxBallLimit where
  normalsMax : Nat
  bonusballMax : Nat
  deriving Repr, DecidableEq

/-- What is read of `/rounds/active`, with none for what is missing or no date. An answer without a
decimal id fails like one that does not come. -/
structure RoundResponse where
  id : Nat
  status : String := "active"
  ballPool : Option MaxBallLimit
  startedAt : Option Nat := some 0
  endedAt : Option Nat
  prizePool : Option String := some "0"
  deriving Repr, DecidableEq

/-- What is read of the cached round. -/
structure RoundState where
  id : Nat
  normalsMax : Nat
  bonusballMax : Nat
  endedAt : Nat
  deriving Repr, DecidableEq

/-- `ended_at` is padded by five minutes. -/
def parseRoundState (data : RoundResponse) : Except String RoundState :=
  if data.status ≠ "active" then
    .error ("Invalid active round state: ID " ++ toString data.id ++ ", Status: " ++ data.status)
  else match data.ballPool with
    | none => .error "Missing or malformed ball_pool configuration"
    | some pool =>
      if pool.normalsMax = 0 ∨ pool.bonusballMax = 0 then
        .error "Missing or malformed ball_pool configuration"
      else match data.startedAt, data.endedAt with
        | some _, some endedAt =>
          if data.prizePool.any (· ≠ "") then
            .ok { id := data.id, normalsMax := pool.normalsMax, bonusballMax := pool.bonusballMax
                  endedAt := endedAt + 5 * 60 * 1000 }
          else .error "Missing prize pool amounts"
        | _, _ => .error "Missing essential round timestamps"

/-- The columns of `ProtocolState` that the transition writes, without the display sums. -/
structure ProtocolState where
  isPaused : Bool := false
  currentEpochId : Option Nat := none
  endedAt : Option Nat := none
  maxNormalBall : Option Nat := none
  maxBonusBall : Option Nat := none
  deriving Repr, DecidableEq

/-! ## Transactions -/

/-- The transactions of `pauseProtocol` and `resumeAndTransitionEpoch`. -/
inductive Tx where
  | pause
  | resume (update : Option MaxBallLimit) (nextEpoch : Nat)
  deriving Repr, DecidableEq

def Tx.coreInstructions (admin : Pubkey) : Tx → List Instruction
  | .pause => [.pauseProtocol admin]
  | .resume none nextEpoch => [.resumeProtocol admin nextEpoch]
  | .resume (some pool) nextEpoch =>
      [.updateEpoch admin pool.normalsMax pool.bonusballMax, .resumeProtocol admin nextEpoch]

/-- A transaction runs whole or not at all. -/
def execute (chain : Chain) (signers : List Pubkey) (ixs : List Instruction) :
    Except ProgramError Chain :=
  ixs.foldlM (fun chain ix => Program.execute chain signers ix) chain

inductive TxStatus where
  | inFlight | landed | failed
  deriving Repr, DecidableEq

structure Sent where
  tx : Tx
  status : TxStatus := .inFlight
  deriving Repr, DecidableEq

/-! ## Processes -/

/-- Who calls `ensureActiveRoundCached`: `transitionLoop` at its start, or `setupNextFetchCron`
after the wait loop or at boot. -/
inductive Ensure where
  | transition | loop | boot
  deriving Repr, DecidableEq

/-- Who holds the lock: a `transitionLoop` with the round it found cached, or the catch-up at boot
with what it has read. -/
inductive Caller where
  | loop (current : RoundState)
  | boot (raw : RoundResponse) (onChain : LordsPotState)
  deriving Repr, DecidableEq

/-- Who calls `processActiveRound`. A loop comes from its resume, whose signature it drops, or from
the phantom branch. -/
inductive Processor where
  | ensure (caller : Ensure)
  | loop (current : RoundState) (signature : Option Nat)
  | boot
  deriving Repr, DecidableEq

/-- Who calls `setPaused`; a loop that has rolled over knows the round that it fetched, and the
signature of its resume. -/
inductive Setter where
  | pausing (caller : Caller)
  | verified (current : RoundState)
  | resumedLoop (current : RoundState) (fetched : RoundResponse) (signature : Option Nat)
  | resumedBoot
  | synced
  deriving Repr, DecidableEq

/-- The await a process is at. -/
inductive Process where
  /-- `transitionLoop`'s first read. -/
  | getRoundState
  | ensureExisting (caller : Ensure)
  | ensureFetch (caller : Ensure)
  | ensureSaved (caller : Ensure)
  | lock (caller : Caller)
  | pauseProtocol (caller : Caller)
  | confirmPause (caller : Caller) (signature : Nat)
  /-- The read after a pause that threw. -/
  | verifyPaused (current : RoundState)
  /-- The head of the wait loop. -/
  | expireLock (current : RoundState)
  | fetchActive (current : RoundState)
  | fetchSettled (current : RoundState) (fetched : RoundResponse)
  | upsertSettled (current : RoundState) (fetched : RoundResponse) (settled : SettledRound)
  | getOnChainState (current : RoundState) (fetched : RoundResponse)
  | resume (caller : Caller) (fetched : RoundResponse) (onChain : LordsPotState)
  /-- `processActiveRound`. -/
  | readPauseKey (caller : Processor) (data : RoundResponse)
  | writeRound (caller : Processor) (data : RoundResponse) (parsed : RoundState) (isPaused : Bool)
  | syncProtocolState (caller : Processor) (data : RoundResponse) (isPaused : Bool)
  /-- `setPaused`. -/
  | writePauseKey (caller : Setter) (paused : Bool)
  | writePauseRow (caller : Setter) (paused : Bool)
  /-- The `finally` of a pass of the wait loop, until the clock has come to `wakes`. The last pass has
  rolled over, to this round and with this resume. -/
  | pollDelay (current : RoundState) (last : Option (RoundResponse × Option Nat)) (wakes : Nat)
  /-- The `finally` that deletes the lock. -/
  | delLock (boot : Bool)
  /-- `reconcileOnChainEpochAtBoot` until both of its reads have come. -/
  | bootRead (attempt : Nat) (onChain : Option LordsPotState) (raw : Option RoundResponse)
  /-- `syncPauseStateFromChain`. -/
  | syncChain
  | syncKey (isLordsPotPaused : Bool)
  | syncRow (isLordsPotPaused : Bool)
  | done
  deriving Repr

structure State where
  chain : Chain
  adminKey : Pubkey
  sent : List Sent := []
  /-- Megapot's active round. -/
  active : RoundResponse
  /-- `megapot-active_round`. -/
  cache : Option RoundState := none
  /-- `megapot-is_paused` is `'true'`. -/
  pauseKey : Bool := false
  /-- When `megapot-transition_lock` expires; none when the key is not there. -/
  lock : Option Nat := none
  protocolState : Option ProtocolState := none
  db : Db := {}
  now : Nat := 0
  processes : List Process := []

def State.setProtocolState (s : State) (f : ProtocolState → ProtocolState) : State :=
  { s with protocolState := some (f (s.protocolState.getD {})) }

def State.send (s : State) (tx : Tx) : State := { s with sent := s.sent ++ [{ tx := tx }] }

/-- `Date.now() < new Date(current.ended_at).getTime() - PRE_EMPTIVE_BUFFER_MS`. -/
def State.notDue (s : State) (current : RoundState) : Bool :=
  s.now + PRE_EMPTIVE_BUFFER_MS < current.endedAt

/-- `transitionLoop` after it has a round. -/
def dueCheck (s : State) (current : RoundState) : Process :=
  if s.notDue current then .done else .lock (.loop current)

/-- `ensureActiveRoundCached` has a round. -/
def ensured (s : State) (current : RoundState) : Ensure → Process
  | .transition => dueCheck s current
  | .loop => .delLock false
  | .boot => .done

/-- It threw: both callers catch. -/
def ensureFailed : Ensure → Process
  | .transition | .boot => .done
  | .loop => .delLock false

/-- A pass of the wait loop ends without a rollover. -/
def pollAgain (now : Nat) (current : RoundState) : Process :=
  .pollDelay current none (now + POLL_DELAY_MS)

/-- Where a process goes on when the await it is at throws. -/
def Process.onThrow (now : Nat) : Process → Process
  | .ensureExisting caller | .ensureFetch caller | .ensureSaved caller => ensureFailed caller
  | .readPauseKey (.ensure caller) _ | .writeRound (.ensure caller) .. |
    .syncProtocolState (.ensure caller) .. => ensureFailed caller
  | .pauseProtocol (.loop current) | .confirmPause (.loop current) _ |
    .writePauseKey (.pausing (.loop current)) _ | .writePauseRow (.pausing (.loop current)) _ =>
      .verifyPaused current
  | .verifyPaused _ | .writePauseKey (.verified _) _ | .writePauseRow (.verified _) _ => .delLock false
  -- the renewal of the lock is not waited for
  | .expireLock current => .fetchActive current
  | .fetchActive current | .getOnChainState current _ | .resume (.loop current) .. |
    .readPauseKey (.loop current _) _ | .writeRound (.loop current _) .. |
    .syncProtocolState (.loop current _) .. | .writePauseKey (.resumedLoop current ..) _ |
    .writePauseRow (.resumedLoop current ..) _ => pollAgain now current
  -- a timer does not throw
  | .pollDelay current last wakes => .pollDelay current last wakes
  | .fetchSettled current fetched | .upsertSettled current fetched _ =>
      .getOnChainState current fetched
  | .pauseProtocol (.boot ..) | .confirmPause (.boot ..) _ | .writePauseKey (.pausing (.boot ..)) _ |
    .writePauseRow (.pausing (.boot ..)) _ | .resume (.boot ..) .. | .readPauseKey .boot _ |
    .writeRound .boot .. | .syncProtocolState .boot .. | .writePauseKey .resumedBoot _ |
    .writePauseRow .resumedBoot _ => .delLock true
  | .lock (.boot ..) | .delLock true => .ensureExisting .boot
  | .bootRead attempt _ _ =>
      if attempt < 3 then .bootRead (attempt + 1) none none else .ensureExisting .boot
  | .getRoundState | .lock (.loop _) | .delLock false | .syncChain | .syncKey _ | .syncRow _ |
    .writePauseKey .synced _ | .writePauseRow .synced _ | .done => .done

/-- Both reads of the catch-up have come, or one is still awaited. -/
def bootNext (attempt : Nat) : Option LordsPotState → Option RoundResponse → Process
  | some onChain, some raw =>
      if raw.id ≤ onChain.ongoingEpoch then .ensureExisting .boot else .lock (.boot raw onChain)
  | onChain, raw => .bootRead attempt onChain raw

def Caller.locked : Caller → Process
  | .loop current => .pauseProtocol (.loop current)
  | .boot raw onChain =>
      if onChain.isLordsPotPaused then .resume (.boot raw onChain) raw onChain
      else .pauseProtocol (.boot raw onChain)

/-- Another process holds the lock. -/
def Caller.skipped : Caller → Process
  | .loop _ => .done
  | .boot .. => .ensureExisting .boot

def Caller.processor (signature : Nat) : Caller → Processor
  | .loop current => .loop current (some signature)
  | .boot .. => .boot

def Processor.processed (data : RoundResponse) : Processor → Process
  | .ensure caller => .ensureSaved caller
  | .loop current signature => .writePauseKey (.resumedLoop current data signature) false
  | .boot => .writePauseKey .resumedBoot false

def Setter.written (now : Nat) : Setter → Process
  | .pausing (.loop current) | .verified current => .expireLock current
  | .pausing (.boot raw onChain) => .resume (.boot raw onChain) raw onChain
  -- `break`, by way of the `finally`
  | .resumedLoop current fetched signature =>
      .pollDelay current (some (fetched, signature)) (now + POLL_DELAY_MS)
  | .resumedBoot => .delLock true
  | .synced => .done

def needsUpdate (pool : MaxBallLimit) (onChain : LordsPotState) : Bool :=
  pool.bonusballMax != onChain.bonusMax || pool.normalsMax != onChain.normalMax

/-- The transaction of `resumeAndTransitionEpoch`; the encoder throws on what is no u8 or u64. -/
def resumeTx (fetched : RoundResponse) (onChain : LordsPotState) : Option Tx :=
  fetched.ballPool.bind fun pool =>
    let update := if needsUpdate pool onChain then some pool else none
    if update.all (fun pool => pool.normalsMax < 2 ^ 8 ∧ pool.bonusballMax < 2 ^ 8) ∧
        fetched.id < 2 ^ 64 then
      some (.resume update fetched.id)
    else none

/-- The await returns, with its effect: the state after it and the next await. -/
def Process.run (s : State) (p : Process) : Option (State × Process) :=
  match p with
  | .getRoundState => some (s, match s.cache with
      | none => .ensureExisting .transition
      | some current => dueCheck s current)
  | .ensureExisting caller => some (s, match s.cache with
      | none => .ensureFetch caller
      | some existing => if existing.id = 0 then .ensureFetch caller else ensured s existing caller)
  | .ensureFetch caller => some (s, .readPauseKey (.ensure caller) s.active)
  | .ensureSaved caller => some (s, match s.cache with
      | none => ensureFailed caller
      | some saved => if saved.id = 0 then ensureFailed caller else ensured s saved caller)
  | .lock caller =>
      if s.lock.any (s.now < ·) then some (s, caller.skipped)
      else some ({ s with lock := some (s.now + TRANSITION_LOCK_MS) }, caller.locked)
  | .pauseProtocol caller => some (s.send .pause, .confirmPause caller s.sent.length)
  | .confirmPause caller signature =>
      -- whether it failed on chain is not looked at
      if s.sent[signature]?.any (·.status != .inFlight) then
        some (s, .writePauseKey (.pausing caller) true)
      else none
  | .verifyPaused current => some (s, match Program.loadState s.chain with
      | .ok onChain =>
          if onChain.isLordsPotPaused then .writePauseKey (.verified current) true else .delLock false
      | .error _ => p.onThrow s.now)
  | .expireLock current =>
      some ({ s with lock := s.lock.map fun expiry =>
                if s.now < expiry then s.now + TRANSITION_LOCK_MS else expiry }, .fetchActive current)
  | .fetchActive current => some (s,
      if current.id < s.active.id then .fetchSettled current s.active else pollAgain s.now current)
  | .fetchSettled .. => none
  | .upsertSettled current fetched settled =>
      some ({ s with db := upsertSettledEpoch s.db settled }, .getOnChainState current fetched)
  | .getOnChainState current fetched => some (s, match Program.loadState s.chain with
      | .ok onChain =>
          if onChain.isLordsPotPaused then .resume (.loop current) fetched onChain
          else .readPauseKey (.loop current none) fetched
      | .error _ => p.onThrow s.now)
  | .resume caller fetched onChain => some <| match resumeTx fetched onChain with
      | some tx => (s.send tx, .readPauseKey (caller.processor s.sent.length) fetched)
      | none => (s, p.onThrow s.now)
  | .readPauseKey caller data => some (s, match parseRoundState data with
      | .ok parsed => .writeRound caller data parsed s.pauseKey
      | .error _ => p.onThrow s.now)
  | .writeRound caller data parsed isPaused =>
      some ({ s with cache := some parsed }, .syncProtocolState caller data isPaused)
  | .syncProtocolState caller data isPaused =>
      some (s.setProtocolState fun _ =>
          { isPaused := isPaused, currentEpochId := some data.id
            endedAt := data.endedAt.map (· + 5 * 60 * 1000)
            maxNormalBall := data.ballPool.map (·.normalsMax)
            maxBonusBall := data.ballPool.map (·.bonusballMax) },
        caller.processed data)
  | .writePauseKey caller paused =>
      some ({ s with pauseKey := paused }, .writePauseRow caller paused)
  | .writePauseRow caller paused =>
      some (s.setProtocolState fun row => { row with isPaused := paused }, caller.written s.now)
  | .pollDelay current last wakes =>
      if wakes ≤ s.now then
        -- out of the wait loop, to `setupNextFetchCron`
        some (s, if last.isSome then .ensureExisting .loop else .expireLock current)
      else none
  | .delLock boot =>
      some ({ s with lock := none }, if boot then .ensureExisting .boot else .done)
  | .bootRead attempt onChain raw => some (s, match onChain, Program.loadState s.chain with
      | none, .ok onChain => bootNext attempt (some onChain) raw
      | none, .error _ => p.onThrow s.now
      | some onChain, _ => bootNext attempt (some onChain) raw)
  | .syncChain => some (s, match Program.loadState s.chain with
      | .ok onChain => .syncKey onChain.isLordsPotPaused
      | .error _ => p.onThrow s.now)
  | .syncKey isLordsPotPaused => some (s,
      if s.pauseKey then
        if isLordsPotPaused then .done else .writePauseKey .synced isLordsPotPaused
      else .syncRow isLordsPotPaused)
  | .syncRow isLordsPotPaused => some (s,
      if (s.protocolState.getD {}).isPaused = isLordsPotPaused then .done
      else .writePauseKey .synced isLordsPotPaused)
  | .done => none

/-! ## Runs -/

/-- How the await of a process ends. -/
inductive Event where
  | ok
  /-- Megapot's answer to the catch-up, which waits for two at once. -/
  | fetched
  /-- `fetchRoundById` answers. -/
  | settled (round : SettledRound)
  /-- The call throws after its effect. -/
  | lost
  | throw
  deriving Repr

def Process.on (s : State) (p : Process) : Event → Option (State × Process)
  | .ok => p.run s
  | .fetched => match p with
      | .bootRead attempt onChain none => some (s, bootNext attempt onChain (some s.active))
      | _ => none
  | .settled round => match p with
      | .fetchSettled current fetched => some (s, .upsertSettled current fetched round)
      | _ => none
  | .lost => (p.run s).map fun after => (after.1, p.onThrow s.now)
  | .throw => some (s, p.onThrow s.now)

/-- What users and the admin's other instructions do to the program. -/
def elsewhere : Program.Action → Bool
  | .invoke _ (.pauseProtocol _) | .invoke _ (.resumeProtocol ..) | .invoke _ (.updateEpoch ..) |
    .invoke _ (.setAdmin ..) => false
  | _ => true

inductive Action where
  /-- `safeTransition`, by a timer or a heartbeat. -/
  | transition
  /-- `startSync`. -/
  | boot
  | syncPauseState
  | process (i : Nat) (event : Event)
  | crash (i : Nat)
  | land (signature : Nat)
  /-- The admin's key sends a transaction by hand. -/
  | script (tx : Tx)
  | program (action : Program.Action)
  /-- Megapot answers with this round from now on. -/
  | activate (round : RoundResponse)
  /-- Redis restarts without its data. -/
  | redisLost
  | clock (ms : Nat)

def State.start (s : State) (p : Process) : State := { s with processes := s.processes ++ [p] }

def State.setStatus (s : State) (signature : Nat) (tx : Tx) (status : TxStatus) : State :=
  { s with sent := s.sent.set signature { tx := tx, status := status } }

def step (s : State) : Action → Option State
  | .transition => some (s.start .getRoundState)
  | .boot => some (s.start (.bootRead 1 none none))
  | .syncPauseState => some (s.start .syncChain)
  | .process i event => s.processes[i]?.bind fun p => (p.on s event).map fun (s', p') =>
      { s' with processes := s.processes.set i p' }
  | .crash i => some { s with processes := s.processes.set i .done }
  | .land signature => match s.sent[signature]? with
      | some ⟨tx, .inFlight⟩ =>
          match execute s.chain [s.adminKey] (tx.coreInstructions s.adminKey) with
          | .ok chain => some { s.setStatus signature tx .landed with chain := chain }
          | .error _ => some (s.setStatus signature tx .failed)
      | _ => none
  | .script tx => some (s.send tx)
  | .program action =>
      if elsewhere action then (Program.step s.chain action).map fun chain => { s with chain := chain }
      else none
  | .activate round => if s.active.id ≤ round.id then some { s with active := round } else none
  | .redisLost => some { s with cache := none, pauseKey := false, lock := none }
  | .clock ms => some { s with now := s.now + ms }

/-- The program is there, with the backend's key as its admin, and nothing is under way. -/
structure Initial (s : State) : Prop where
  holds : ∃ state, s.chain.Holds state ∧ state.admin = s.adminKey
  noSent : s.sent = []
  noProcesses : s.processes = []

/-- Every interleaving, from any state of the program and of the cache. -/
def machine : Machine State Action := ⟨Initial, step⟩

/-! ## One transition -/

def onSale : State where
  chain := {
    lordsPotState := some {
      dataLen := Program.STATE_SIZE
      data := {
        normalMax := 30, bonusMax := 10, ticketPrice := 100, ongoingEpoch := 1
        isLordsPotPaused := false, admin := "admin", version := Program.STATE_VERSION
        relayFeeBase := 5, relayFeePerTicket := 5, feeRecipient := "fees"
        maxTicketsPerPurchase := 50, maxClaimAmount := 500, treasuryAuthority := "treasury" } }
    tokens := fun _ => none }
  adminKey := "admin"
  active := { id := 1, ballPool := some ⟨30, 10⟩, endedAt := some 0 }
  cache := some ⟨1, 30, 10, 0⟩

theorem initial_onSale : Initial onSale where
  holds := ⟨_, ⟨_, rfl, le_rfl, rfl⟩, rfl⟩
  noSent := rfl
  noProcesses := rfl

def events (i : Nat) (events : List Event) : List Action := events.map (.process i)

/-- Loop `i` starts, and its pause lands. -/
def pausing (i signature : Nat) : List Action :=
  .transition :: events i [.ok, .ok, .ok] ++ .land signature :: events i [.ok, .ok, .ok, .ok]

/-- It fetches a later round; the round that has ended is left for the backfill. -/
def fetching (i : Nat) : List Action := events i [.ok, .throw]

/-- Megapot rolls over to round 2, and loop 0 sends its resume. -/
def resuming : List Action :=
  pausing 0 0 ++ .activate { id := 2, ballPool := some ⟨35, 10⟩, endedAt := some 100 } ::
    fetching 0 ++ events 0 [.ok, .ok]

/-! ## The program under these steps -/

section Chain

variable {chain chain' : Chain} {state : LordsPotState} {key : Pubkey}

theorem loadState_eq_ok : Program.loadState chain = .ok state ↔ chain.Holds state := by
  unfold Program.loadState Chain.Holds
  cases account : chain.lordsPotState with
  | none => simp
  | some account =>
    simp only [Option.some.injEq, exists_eq_left']
    split
    · rename_i short
      simp only [reduceCtorEq, false_iff, not_and]
      intro long
      omega
    · rename_i long
      simp only [Except.ok.injEq]
      constructor
      · intro same
        exact ⟨by omega, same⟩
      · exact fun h => h.2

/-- What the transition sets: the pause flag, the epoch, and the ranges. -/
def sale (state : LordsPotState) : Bool × Nat × Nat × Nat :=
  (state.isLordsPotPaused, state.ongoingEpoch, state.normalMax, state.bonusMax)

/-- `resume_protocol` of a paused program is accepted for every later epoch. -/
theorem execute_resumeProtocol (holds : chain.Holds state) (admin : state.admin = key)
    (paused : state.isLordsPotPaused = true) {nextEpoch : Nat} (later : state.ongoingEpoch < nextEpoch) :
    ∃ chain', Program.execute chain [key] (.resumeProtocol key nextEpoch) = .ok chain' := by
  have loaded := loadState_eq_ok.2 holds
  refine ⟨chain.store { state with isLordsPotPaused := false, ongoingEpoch := nextEpoch }, ?_⟩
  simp [Program.execute, Program.require, loaded, admin, paused, later, bind, Except.bind]

theorem execute_pause (holds : chain.Holds state)
    (h : execute chain [key] (Tx.pause.coreInstructions key) = .ok chain') :
    state.isLordsPotPaused = false ∧ chain'.Holds { state with isLordsPotPaused := true } := by
  obtain ⟨chain₁, ran, done⟩ := Program.of_bind h
  cases done
  cases Program.execute_succeeds ran with
  | pauseProtocol holds' _ unpaused =>
    cases holds.unique holds'
    exact ⟨unpaused, holds.store⟩

theorem resumeProtocol_ok {signers : List Pubkey} {nextEpoch : Nat} (holds : chain.Holds state)
    (h : Program.execute chain signers (.resumeProtocol key nextEpoch) = .ok chain') :
    state.isLordsPotPaused = true ∧ state.ongoingEpoch < nextEpoch ∧
      chain' = chain.store { state with isLordsPotPaused := false, ongoingEpoch := nextEpoch } := by
  cases Program.execute_succeeds h with
  | resumeProtocol holds' _ paused later =>
    cases holds.unique holds'
    exact ⟨paused, later, rfl⟩

/-- A resume that is executed has found the program paused at an earlier epoch. -/
theorem execute_resume (holds : chain.Holds state) {update : Option MaxBallLimit} {nextEpoch : Nat}
    (h : execute chain [key] ((Tx.resume update nextEpoch).coreInstructions key) = .ok chain') :
    state.isLordsPotPaused = true ∧ state.ongoingEpoch < nextEpoch ∧
      ∃ state', chain'.Holds state' ∧ state'.admin = state.admin ∧
        sale state' = (false, nextEpoch, update.elim state.normalMax (·.normalsMax),
          update.elim state.bonusMax (·.bonusballMax)) := by
  cases update with
  | none =>
    obtain ⟨chain₁, ran, done⟩ := Program.of_bind h
    cases done
    obtain ⟨paused, later, rfl⟩ := resumeProtocol_ok holds ran
    exact ⟨paused, later, _, holds.store, rfl, rfl⟩
  | some pool =>
    obtain ⟨chain₁, ran, h⟩ := Program.of_bind h
    obtain ⟨chain₂, resumed, done⟩ := Program.of_bind h
    cases done
    cases Program.execute_succeeds ran with
    | updateEpoch holds' =>
      cases holds.unique holds'
      obtain ⟨paused, later, rfl⟩ := resumeProtocol_ok holds.store resumed
      exact ⟨paused, later, _, holds.store.store, rfl, rfl⟩

/-- A chain on which the same key sells on the same terms. -/
def KeepsSale (chain chain' : Chain) : Prop :=
  ∀ state, chain.Holds state → ∃ state', chain'.Holds state' ∧ state'.admin = state.admin ∧
    sale state' = sale state

theorem KeepsSale.refl (chain : Chain) : KeepsSale chain chain :=
  fun state holds => ⟨state, holds, rfl, rfl⟩

/-- What is done elsewhere leaves the sale alone. -/
theorem elsewhere_keepsSale {action : Program.Action} (other : elsewhere action = true)
    (hs : Program.step chain action = some chain') : KeepsSale chain chain' := by
  intro state holds
  obtain ⟨signers, ix, rfl, -, succeeds⟩ | ⟨same, -, -⟩ := Program.step_cases hs
  · cases succeeds with
    | initializeState fresh => exact absurd fresh holds.ne_none
    | migrated => exact ⟨state, holds, rfl, rfl⟩
    | migrateState present legacy =>
      obtain ⟨account, present', long, -⟩ := holds
      cases present.symm.trans present'
      rw [legacy] at long
      exact absurd long (by decide)
    | setTreasuryAuthority holds' | setRelayConfig holds' =>
      cases holds.unique holds'
      exact ⟨_, holds.store, rfl, rfl⟩
    | buyTicket | claimWinnings | withdrawVaultFunds => exact ⟨state, holds.of_eq rfl, rfl, rfl⟩
    | setAdmin | pauseProtocol | resumeProtocol | updateEpoch => cases other
  · exact ⟨state, holds.of_eq same, rfl, rfl⟩

end Chain

/-! ## The effect of a process's step -/

/-- What an await writes, at most. -/
inductive Process.Wrote (s : State) : Process → State → Prop where
  | nothing {p : Process} : Wrote s p s
  | send {p : Process} (tx : Tx) : Wrote s p (s.send tx)
  | round {caller : Processor} {data : RoundResponse} {parsed : RoundState} {isPaused : Bool} :
      Wrote s (.writeRound caller data parsed isPaused) { s with cache := some parsed }
  | lock {p : Process} (lock : Option Nat) : Wrote s p { s with lock := lock }
  | pauseKey {p : Process} (paused : Bool) : Wrote s p { s with pauseKey := paused }
  | row {p : Process} (f : ProtocolState → ProtocolState) : Wrote s p (s.setProtocolState f)
  | epoch {p : Process} (db : Db) : Wrote s p { s with db := db }

section Effect

variable {s s' : State} {p p' : Process}

theorem Process.run_wrote (h : p.run s = some (s', p')) : p.Wrote s s' := by
  cases p with
  | lock caller =>
    simp only [Process.run] at h
    split at h
    · cases h
      exact .nothing
    · cases h
      exact .lock _
  | confirmPause | pollDelay =>
    simp only [Process.run] at h
    split at h
    · cases h
      exact .nothing
    · cases h
  | resume caller fetched onChain =>
    simp only [Process.run] at h
    split at h
    · cases h
      exact .send _
    · cases h
      exact .nothing
  | pauseProtocol => cases h; exact .send _
  | expireLock | delLock => cases h; exact .lock _
  | upsertSettled => cases h; exact .epoch _
  | writeRound => cases h; exact .round
  | syncProtocolState | writePauseRow => cases h; exact .row _
  | writePauseKey => cases h; exact .pauseKey _
  | fetchSettled | done => cases h
  | getRoundState | ensureExisting | ensureFetch | ensureSaved | verifyPaused | fetchActive
  | getOnChainState | readPauseKey | bootRead | syncChain | syncKey | syncRow =>
    cases h
    exact .nothing

/-- The write of the round is made, whether or not its answer comes. -/
def Event.made : Event → Bool
  | .ok | .lost => true
  | .fetched | .settled _ | .throw => false

/-- A step of a process writes what its await does, or nothing. -/
theorem Process.on_wrote {event : Event} (h : p.on s event = some (s', p')) :
    event.made = true ∧ p.Wrote s s' ∨ s' = s := by
  cases event with
  | ok => exact .inl ⟨rfl, run_wrote h⟩
  | lost =>
    obtain ⟨⟨after, next⟩, ran, same⟩ := Option.map_eq_some_iff.1 h
    cases same
    exact .inl ⟨rfl, run_wrote ran⟩
  | throw =>
    cases h
    exact .inr rfl
  | fetched =>
    cases p with
    | bootRead attempt onChain raw =>
      cases raw with
      | none => cases h; exact .inr rfl
      | some raw => cases h
    | _ => cases h
  | settled round =>
    cases p with
    | fetchSettled => cases h; exact .inr rfl
    | _ => cases h

theorem step_process {i : Nat} {event : Event} (hs : step s (.process i event) = some s') :
    ∃ p s₁ p', s.processes[i]? = some p ∧ p.on s event = some (s₁, p') ∧
      s' = { s₁ with processes := s.processes.set i p' } := by
  obtain ⟨p, hp, hs⟩ := Option.bind_eq_some_iff.1 hs
  obtain ⟨⟨s₁, p'⟩, ran, same⟩ := Option.map_eq_some_iff.1 hs
  exact ⟨p, s₁, p', hp, ran, same.symm⟩

/-- A transaction lands: it is executed, or rejected and without effect. -/
theorem step_land {signature : Nat} (hs : step s (.land signature) = some s') :
    ∃ tx, s.sent[signature]? = some ⟨tx, .inFlight⟩ ∧
      ((∃ chain, execute s.chain [s.adminKey] (tx.coreInstructions s.adminKey) = .ok chain ∧
          s' = { s.setStatus signature tx .landed with chain := chain }) ∨
        s' = s.setStatus signature tx .failed) := by
  simp only [step] at hs
  split at hs
  · rename_i tx found
    split at hs
    · rename_i chain ran
      cases hs
      exact ⟨tx, found, .inl ⟨chain, ran, rfl⟩⟩
    · cases hs
      exact ⟨tx, found, .inr rfl⟩
  · cases hs

/-- A process that has read nothing yet, or is over. -/
def Process.idle : Process → Bool
  | .getRoundState | .bootRead .. | .syncChain | .done => true
  | _ => false

/-- What a step keeps that is neither of a process nor a landing. -/
structure Aside (s : State) (a : Action) (s' : State) : Prop where
  key : s'.adminKey = s.adminKey
  chain : KeepsSale s.chain s'.chain
  sent : ∃ new, s'.sent = s.sent ++ new ∧ ∀ x ∈ new, x.status = .inFlight
  cache : s'.cache = s.cache ∨ a = .redisLost ∧ s'.cache = none
  processes : ∀ p ∈ s'.processes, p ∈ s.processes ∨ p.idle = true

/-- A step that starts or ends processes, or leaves them and the program alone. -/
theorem Aside.of_processes {a : Action}
    (processes : ∀ p ∈ s'.processes, p ∈ s.processes ∨ p.idle = true)
    (key : s'.adminKey = s.adminKey) (chain : s'.chain = s.chain) (sent : s'.sent = s.sent)
    (cache : s'.cache = s.cache) : Aside s a s' where
  key := key
  chain := chain ▸ .refl s.chain
  sent := ⟨[], sent.trans (List.append_nil _).symm, by simp⟩
  cache := .inl cache
  processes := processes

theorem aside_start {a : Action} (idle : p.idle = true) : Aside s a (s.start p) := by
  refine .of_processes (fun q hq => ?_) rfl rfl rfl rfl
  rcases List.mem_append.1 hq with old | new
  · exact .inl old
  · exact .inr (List.mem_singleton.1 new ▸ idle)

/-- **The inversion rule** for the steps of the system. -/
theorem step_cases {a : Action} (hs : step s a = some s') :
    (∃ i event, a = .process i event) ∨ (∃ signature, a = .land signature) ∨ Aside s a s' := by
  cases a with
  | process i event => exact .inl ⟨i, event, rfl⟩
  | land signature => exact .inr (.inl ⟨signature, rfl⟩)
  | transition | boot | syncPauseState =>
    cases hs
    exact .inr (.inr (aside_start rfl))
  | crash i =>
    cases hs
    refine .inr (.inr (.of_processes (fun q hq => ?_) rfl rfl rfl rfl))
    rcases List.mem_or_eq_of_mem_set hq with old | rfl
    · exact .inl old
    · exact .inr rfl
  | script tx =>
    cases hs
    exact .inr (.inr ⟨rfl, .refl _, ⟨[{ tx := tx }], rfl, by simp⟩, .inl rfl, fun p hp => .inl hp⟩)
  | program action =>
    simp only [step] at hs
    split at hs
    · rename_i other
      obtain ⟨chain, stepped, rfl⟩ := Option.map_eq_some_iff.1 hs
      exact .inr (.inr ⟨rfl, elsewhere_keepsSale other stepped,
        ⟨[], (List.append_nil _).symm, by simp⟩, .inl rfl, fun p hp => .inl hp⟩)
    · cases hs
  | activate round =>
    simp only [step] at hs
    split at hs
    · cases hs
      exact .inr (.inr (.of_processes (fun p hp => .inl hp) rfl rfl rfl rfl))
    · cases hs
  | redisLost =>
    cases hs
    exact .inr (.inr ⟨rfl, .refl _, ⟨[], (List.append_nil _).symm, by simp⟩, .inr ⟨rfl, rfl⟩,
      fun p hp => .inl hp⟩)
  | clock ms =>
    cases hs
    exact .inr (.inr (.of_processes (fun p hp => .inl hp) rfl rfl rfl rfl))

end Effect

end LordsPot.Megapot
