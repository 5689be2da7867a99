import Mathlib.Data.List.Dedup
import Mathlib.Data.List.Sort
import LordsPot.Megapot.Epoch
import LordsPot.Relay.Worker
import LordsPot.Settlement.Tiers

/-!
# The settlement worker

`runSettlementTick` as the steps between its awaits, beside the relay. Ticks run in the worker
and in the cron process, so any number of them run at once; each fetches the epochs that are
missing, reads those without a watermark, and settles them one after another, page by page. Every
await can fail, a write can take effect although its answer is lost, and a process can die
anywhere. Rounds are also upserted from elsewhere.
-/

namespace LordsPot.Settlement

open Transition

def TICKET_BATCH : Nat := 500

def MAX_BATCHES_PER_EPOCH : Nat := 2000

/-- Where a tick stands. -/
inductive Tick where
  /-- `healMissingEpochs`. -/
  | findingPending
  | readingRound (pendingEpochs : List Nat)
  | checking (fulfillEpoch : Nat) (current : Option Nat) (rest : List Nat)
  | fetching (fulfillEpoch : Nat) (current : Option Nat) (rest : List Nat)
  | findingUnsettled
  /-- `settleEpoch` before a page is read, and before its transaction. -/
  | paging (epoch : EpochRead) (tiers : Tiers) (batch : Nat) (rest : List EpochRead)
  | grading (epoch : EpochRead) (tiers : Tiers) (batch : Nat) (tickets : List GradableTicket)
      (rest : List EpochRead)
  /-- `settleEpoch` before the watermark is written. -/
  | marking (megapotId : Nat) (rest : List EpochRead)
  /-- `warnUnsettleableOrders`. -/
  | warning
  | ended
  deriving Repr

structure State where
  relay : Relay.State
  now : Nat := 0
  ticks : List Tick := []
  deriving Repr

/-- The awaited call a tick returns from, with the environment's part of it. -/
inductive Call where
  | findPending (pendingEpochs : List Nat)
  | roundState (current : Option Nat)
  | count
  /-- `ensureSettledEpochSynced`; the round is none when it could not be fetched, is not settled
  or lacks its drawing data. -/
  | fetch (round : Option SettledRound)
  | findUnsettled
  | findPage (tickets : List GradableTicket)
  /-- The database write the tick is at. -/
  | write
  /-- The call throws without effect, or the process dies. -/
  | throw
  deriving Repr

inductive Action where
  | relay (action : Relay.Action)
  | start
  /-- Tick `i` makes a call; when the answer is `lost`, the call throws after its effect. -/
  | tick (i : Nat) (call : Call) (lost : Bool)
  /-- A settled round saved outside the ticks. -/
  | upsert (round : SettledRound)
  | clock (ms : Nat)
  deriving Repr

/-! ## What the calls return -/

/-- The epochs of SUCCESS orders that have a pending ticket. -/
def pendingEpochs (db : Db) : List Nat :=
  (db.relayOrders.filterMap fun o =>
    if o.status == .SUCCESS && db.tickets.any fun t =>
        t.orderHash == o.hash && t.winStatus == .DRAW_PENDING then o.fulfillEpoch
    else none).dedup

/-- The tickets `settleEpoch` reads pages of. -/
def gradable (db : Db) (megapotId : Nat) : List GradableTicket :=
  (db.tickets.filter fun t => t.winStatus == .DRAW_PENDING && db.ofEpoch megapotId t).map
    selectGradable

/-- A page: any `TICKET_BATCH` of the tickets, or all of them. -/
def isPage (db : Db) (megapotId : Nat) (tickets : List GradableTicket) : Bool :=
  decide (tickets.Subperm (gradable db megapotId)) &&
    tickets.length == min TICKET_BATCH (gradable db megapotId).length

def readEpoch (e : MegapotEpoch) : EpochRead :=
  { megapotId := e.megapotId, winningNormals := e.winningNormals,
    winningBonusBall := e.winningBonusBall, prizeTiers := e.prizeTiers }

/-- The epochs without a watermark, in ascending order. -/
def unsettledEpochs (db : Db) : List EpochRead :=
  ((db.megapotEpochs.filter (·.ticketsSettledAt.isNone)).insertionSort
    fun e e' => e.megapotId ≤ e'.megapotId).map readEpoch

/-- The watermark of an epoch. -/
def markSettled (db : Db) (megapotId now : Nat) : Db :=
  { db with
    megapotEpochs := Table.updateMany (·.megapotId == megapotId)
      (fun e => { e with ticketsSettledAt := some now }) db.megapotEpochs }

/-! ## The loops -/

/-- `healMissingEpochs` at the next epoch that is not the live drawing. -/
def healEpochs (current : Option Nat) : List Nat → Tick
  | [] => .findingUnsettled
  | fulfillEpoch :: rest =>
    if current.any (· ≤ fulfillEpoch) then healEpochs current rest
    else .checking fulfillEpoch current rest

section Steps

variable (stringToNumber : String → JsNumber)

/-- The epoch loop at the next epoch whose prize table can be read. -/
def settleEpochs : List EpochRead → Tick
  | [] => .warning
  | epoch :: rest =>
    match parsePrizeTiers stringToNumber epoch.prizeTiers with
    | .error _ => settleEpochs rest
    | .ok tiers => .paging epoch tiers 0 rest

/-- `settleEpoch` after a page has been settled. -/
def afterPage (epoch : EpochRead) (tiers : Tiers) (batch length : Nat) (rest : List EpochRead) : Tick :=
  if length < TICKET_BATCH then .marking epoch.megapotId rest
  else if batch = MAX_BATCHES_PER_EPOCH - 1 then settleEpochs stringToNumber rest
  else .paging epoch tiers (batch + 1) rest

def tickStep (db : Db) (now : Nat) : Tick → Call → Option (Db × Tick)
  | .findingPending, .findPending epochs =>
      if epochs.isPerm (pendingEpochs db) then
        some (db, if epochs.isEmpty then .findingUnsettled else .readingRound epochs)
      else none
  | .readingRound epochs, .roundState current => some (db, healEpochs current epochs)
  | .checking fulfillEpoch current rest, .count =>
      some (db, if db.megapotEpochs.any (·.megapotId == fulfillEpoch) then healEpochs current rest
        else .fetching fulfillEpoch current rest)
  | .fetching _ current rest, .fetch round =>
      some (round.elim db (upsertSettledEpoch db), healEpochs current rest)
  | .findingUnsettled, .findUnsettled => some (db, settleEpochs stringToNumber (unsettledEpochs db))
  | .paging epoch tiers batch rest, .findPage tickets =>
      if isPage db epoch.megapotId tickets then
        some (db, if tickets.isEmpty then .marking epoch.megapotId rest
          else .grading epoch tiers batch tickets rest)
      else none
  | .grading epoch tiers batch tickets rest, .write =>
      some (settlePage db (gradePage epoch tiers tickets),
        afterPage stringToNumber epoch tiers batch tickets.length rest)
  | .marking megapotId rest, .write =>
      some (markSettled db megapotId now, settleEpochs stringToNumber rest)
  | .warning, .count => some (db, .ended)
  | _, .throw => some (db, .ended)
  | _, _ => none

def step (keccak256 : String → Bytes32) (s : State) : Action → Option State
  | .relay action => (Relay.step keccak256 s.relay action).map fun relay => { s with relay := relay }
  | .start => some { s with ticks := s.ticks ++ [.findingPending] }
  | .tick i call lost => do
      let tick ← s.ticks[i]?
      let (db, tick') ← tickStep stringToNumber s.relay.db s.now tick call
      pure { s with
        relay := { s.relay with db := db }
        ticks := s.ticks.set i (if lost then .ended else tick') }
  | .upsert round =>
      some { s with relay := { s.relay with db := upsertSettledEpoch s.relay.db round } }
  | .clock ms => some { s with now := s.now + ms }

/-- Orders waiting for the relay, any epochs, and no tick yet. -/
structure Initial (keccak256 : String → Bytes32) (s : State) : Prop where
  relay : Relay.Initial keccak256 s.relay
  noTicks : s.ticks = []

/-- Every interleaving of the relay with the ticks and upserts. -/
def machine (keccak256 : String → Bytes32) : Machine State Action :=
  ⟨Initial keccak256, step stringToNumber keccak256⟩

end Steps

/-! ## What a tick writes -/

/-- What a call of a tick makes of the database. -/
inductive TickWrite (db : Db) : Db → Prop where
  | nothing : TickWrite db db
  | upsert (round : SettledRound) : TickWrite db (upsertSettledEpoch db round)
  | settle (grades : Grades) : TickWrite db (settlePage db grades)
  | mark (megapotId now : Nat) : TickWrite db (markSettled db megapotId now)

theorem tickStep_writes {stringToNumber : String → JsNumber} {db db' : Db} {now : Nat}
    {tick tick' : Tick} {call : Call}
    (hs : tickStep stringToNumber db now tick call = some (db', tick')) : TickWrite db db' := by
  unfold tickStep at hs
  split at hs
  case h_1 => split at hs <;> cases hs; exact .nothing
  case h_2 => cases hs; exact .nothing
  case h_3 => cases hs; exact .nothing
  case h_4 round =>
    cases hs
    cases round with
    | none => exact .nothing
    | some round => exact .upsert round
  case h_5 => cases hs; exact .nothing
  case h_6 => split at hs <;> cases hs; exact .nothing
  case h_7 => cases hs; exact .settle _
  case h_8 => cases hs; exact .mark ..
  case h_9 => cases hs; exact .nothing
  case h_10 => cases hs; exact .nothing
  case h_11 => cases hs

/-- A step of the relay, or one that writes what a tick may write. -/
theorem step_writes {stringToNumber : String → JsNumber} {keccak256 : String → Bytes32} {s s' : State}
    {a : Action} (hs : step stringToNumber keccak256 s a = some s') :
    (∃ action relay, a = .relay action ∧ Relay.step keccak256 s.relay action = some relay ∧
      s' = { s with relay := relay }) ∨ TickWrite s.relay.db s'.relay.db := by
  cases a with
  | relay action =>
    obtain ⟨relay, stepped, rfl⟩ := Option.map_eq_some_iff.1 hs
    exact .inl ⟨action, relay, rfl, stepped, rfl⟩
  | start => cases hs; exact .inr .nothing
  | tick i call lost =>
    obtain ⟨tick, -, hs⟩ := Option.bind_eq_some_iff.1 hs
    obtain ⟨⟨db, tick'⟩, stepped, hs⟩ := Option.bind_eq_some_iff.1 hs
    cases hs
    exact .inr (tickStep_writes stepped)
  | upsert round => cases hs; exact .inr (.upsert round)
  | clock ms => cases hs; exact .inr .nothing

end LordsPot.Settlement
