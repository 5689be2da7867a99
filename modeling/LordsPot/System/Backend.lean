import LordsPot.Harvest.Worker
import LordsPot.Payout.System
import LordsPot.Settlement.Watermark

/-!
# The whole backend

The relay, settlement, harvest and payout over one database and one clock. Each component takes
its own steps on its own part of the state. What its own machine leaves to an environment (a
ticket graded, a round saved, a batch confirmed, time passing) is here another component's step.
-/

namespace LordsPot

open Transition

/-- The steps of the harvest worker, its chain and its operators. -/
def Harvest.Action.own : Harvest.Action → Bool
  | .start | .tick .. | .mine .. | .unquarantine _ => true
  | .clock _ | .grade .. | .settled _ => false

/-- The steps of handlers, confirmer, users and program. -/
def Payout.Action.own : Payout.Action → Bool
  | .request _ | .route .. | .tick _ | .land .. | .blocks _ | .program _ => true
  | .clock _ | .harvest .. | .epoch _ => false

namespace System

/-- The relay and settlement with the database and the clock, and what only the others have. -/
structure State where
  settlement : Settlement.State
  quarantined : List Uuid := []
  claimTxs : List Harvest.ClaimTx := []
  harvestTicks : List Harvest.Tick := []
  height : Nat := 0
  program : Payout.Program
  adminKey : Wallet
  requests : List Payout.Request := []
  vouchers : List Payout.Voucher := []
  landed : List Payout.Landing := []
  confirmer : Option Payout.Tick := none
  deriving Repr

inductive Action where
  | settlement (action : Settlement.Action)
  | harvest (action : Harvest.Action)
  | payout (action : Payout.Action)
  /-- An operator puts a ticket into the quarantine set. -/
  | quarantine (ticketId : Uuid)
  deriving Repr

namespace State

abbrev db (s : State) : Db := s.settlement.relay.db

abbrev now (s : State) : Nat := s.settlement.now

def setDb (s : State) (db : Db) : State :=
  { s with settlement := { s.settlement with relay := { s.settlement.relay with db := db } } }

/-- What the harvest worker sees. -/
def harvest (s : State) : Harvest.State :=
  { now := s.now, db := s.db, quarantined := s.quarantined, txs := s.claimTxs,
    ticks := s.harvestTicks }

def putHarvest (s : State) (h : Harvest.State) : State :=
  { s.setDb h.db with quarantined := h.quarantined, claimTxs := h.txs, harvestTicks := h.ticks }

/-- What the payout path sees. -/
def payout (s : State) : Payout.State :=
  { now := s.now, height := s.height, program := s.program, adminKey := s.adminKey, db := s.db,
    requests := s.requests, vouchers := s.vouchers, landed := s.landed, tick := s.confirmer }

def putPayout (s : State) (p : Payout.State) : State :=
  { s.setDb p.db with
    height := p.height, program := p.program, adminKey := p.adminKey, requests := p.requests
    vouchers := p.vouchers, landed := p.landed, confirmer := p.tick }

@[simp] theorem setDb_db (s : State) (db : Db) : (s.setDb db).db = db := rfl

@[simp] theorem putHarvest_db (s : State) (h : Harvest.State) : (s.putHarvest h).db = h.db := rfl

@[simp] theorem putPayout_db (s : State) (p : Payout.State) : (s.putPayout p).db = p.db := rfl

end State

section Machine

variable (stringToNumber : String → JsNumber) (keccak256 : String → Bytes32)

def step (s : State) : Action → Option State
  | .settlement action =>
      (Settlement.step stringToNumber keccak256 s.settlement action).map fun settlement =>
        { s with settlement := settlement }
  | .harvest action =>
      if action.own then (Harvest.step s.harvest action).map s.putHarvest else none
  | .payout action =>
      if action.own then (Payout.step s.payout action).map s.putPayout else none
  | .quarantine ticketId => some { s with quarantined := s.quarantined ++ [ticketId] }

/-- Orders waiting for the relay, their tickets not drawn, any epochs, and nothing under way. -/
structure Initial (s : State) : Prop where
  settlement : Settlement.Initial keccak256 s.settlement
  epochIds : (s.db.megapotEpochs.map (·.megapotId)).Nodup
  pending : ∀ t ∈ s.db.tickets, t.winStatus = .DRAW_PENDING
  unharvested : ∀ t ∈ s.db.tickets, t.harvestBatchId = none
  unclaimed : ∀ t ∈ s.db.tickets, t.payoutClaimId = none
  noBatches : s.db.harvestBatches = []
  noClaims : s.db.payoutClaims = []
  noTxs : s.claimTxs = []
  noTicks : s.harvestTicks = []
  noRequests : s.requests = []
  noVouchers : s.vouchers = []
  noLandings : s.landed = []
  noConfirmer : s.confirmer = none

/-- Every interleaving of the components' steps. -/
def machine : Machine State Action := ⟨Initial keccak256, step stringToNumber keccak256⟩

end Machine

/-! ## One order with one ticket -/

/-- Its ticket has the numbers that drawing 1 will have. -/
def idle : State where
  settlement := Settlement.idle
  program := { admin := "admin", maxClaimAmount := 1000, vaultUsdc := 1000 }
  adminKey := "admin"

def settle (actions : List Settlement.Action) : List Action := actions.map .settlement

/-- The round of drawing 1, with the ticket's numbers. -/
def won : SettledRound where
  megapotId := 1
  winningNormals := [1, 2, 3, 4, 5]
  winningBonusBall := 1
  prizeTiers := .arr [.obj [("tierId", .num (.int 11)), ("amount", .str "100")]]
  endedAt := some 0

/-- Drawing 1 is settled and its round saved. -/
def draw (round : SettledRound) : List Settlement.Action := [.relay (.rollover 2), .upsert round]

def page : List Settlement.GradableTicket :=
  [{ id := "1-", normalBalls := [1, 2, 3, 4, 5], bonusBall := 1 }]

/-- One settlement tick after the drawing. -/
def grade (round : SettledRound) : List Settlement.Action :=
  draw round ++ Settlement.tick [.findPending [1], .roundState (some 2), .count, .findUnsettled,
    .findPage page, .write, .write]

/-- The ticket is relayed, and graded after its drawing. -/
def graded : List Action :=
  settle (Settlement.relayed.map .relay ++ Settlement.succeed :: grade won)

/-- Harvest tick `i`. -/
def harvestTick (i : Nat) (acts : List Harvest.TickAct) : List Action :=
  .harvest .start :: acts.map fun act => .harvest (.tick i act)

/-- One tick harvests the ticket and the next one finds the transaction mined. -/
def harvested : List Action :=
  harvestTick 0 [.findInFlight none, .find ["1-"], .rehearse [], .create "h", .bind,
      .submit "0x2" false, .record] ++
    .harvest (.mine "0x2" true) ::
      harvestTick 1 [.findInFlight (some "h"), .getReceipt (some true), .finalize]

/-- The buyer gets a voucher and submits it, and the confirmer finds the payout. -/
def paid : List Action :=
  .payout (.request "w") ::
    ([.gate false, .findExisting, .readRevealed, .create "c", .bind, .sum, .ceiling true,
      .build (some 150), .stamp false, .handOut].map fun act => .payout (.route 0 act)) ++
    .payout (.land ⟨"c", "w", "admin", 100, 150, ["1-"]⟩ "sig" 1 none) ::
    ([.readPending, .callSweep, .sweepReturns ⟨[⟨"w", 100, "sig", 1, none, false⟩], true⟩,
      .readUsed, .readHeight 0, .resolveNext false].map fun act => .payout (.tick act))

theorem initial_idle : Initial id idle where
  settlement := Settlement.initial_idle
  epochIds := List.nodup_nil
  pending := by decide
  unharvested := by decide
  unclaimed := by decide
  noBatches := rfl
  noClaims := rfl
  noTxs := rfl
  noTicks := rfl
  noRequests := rfl
  noVouchers := rfl
  noLandings := rfl
  noConfirmer := rfl

end System

end LordsPot
