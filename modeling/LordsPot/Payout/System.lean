import LordsPot.Library.Machine
import LordsPot.Harvest.Batch
import LordsPot.Payout.Confirmer

/-!
# Vouchers, the confirmer and the chain together

The state of the payout path: the server clock, the block height, the program, the
database, every `POST /voucher` handler in flight, the vouchers handed to users, the
voucher transactions that landed, and the confirmer's tick. An action is one step of one
of them. A submission that fails on chain moves no funds and emits no event, so the only
submissions that change anything are the landings.
-/

namespace LordsPot.Payout

open Transition

/-- A voucher transaction whose `claim_winnings` executed. -/
structure Landing where
  voucher : Voucher
  signature : Signature
  slot : Nat
  blockTime : Option Nat
  deriving Repr, DecidableEq

/-- The entry `findLandedClaims` reports for a landing. -/
def Landing.claim (l : Landing) : LandedClaim :=
  { wallet := l.voucher.wallet, amount := l.voucher.amount, signature := l.signature,
    slot := l.slot, blockTime := l.blockTime, failed := false }

/-- Where a confirmer tick stands. `calledAt` is the block height at which the sweep was
called, `before` the landings of that moment. -/
inductive Tick where
  | pendingRead (pending : List PayoutClaim)
  | sweeping (pending : List PayoutClaim) (notBefore calledAt : Nat) (before : List Landing)
  | swept (pending : List PayoutClaim) (calledAt : Nat) (landed : LandedClaims)
  | usedRead (pending : List PayoutClaim) (calledAt : Nat) (landed : LandedClaims)
      (alreadyUsed : List Signature)
  | resolving (pending : List PayoutClaim) (calledAt : Nat) (landed : LandedClaims)
      (alreadyUsed : List Signature) (currentHeight : Nat)
  deriving Repr, DecidableEq

structure State where
  now : Nat
  height : Nat
  program : Program
  adminKey : Wallet
  db : Db
  requests : List Request := []
  vouchers : List Voucher := []
  landed : List Landing := []
  tick : Option Tick := none
  deriving Repr

inductive TickAct where
  | readPending
  | callSweep
  | sweepReturns (landed : LandedClaims)
  | sweepThrows
  | readUsed
  /-- `getBlockHeight`, possibly from a node behind the tip. -/
  | readHeight (height : Nat)
  /-- Resolve the next claim; its transaction may fail, which the loop survives. -/
  | resolveNext (fails : Bool)
  | crash
  deriving Repr, DecidableEq

inductive Action where
  /-- A `POST /voucher` arrives. -/
  | request (wallet : Wallet)
  | route (i : Nat) (act : RouteAct)
  | tick (act : TickAct)
  /-- The user submits a voucher and it executes. -/
  | land (v : Voucher) (signature : Signature) (slot : Nat) (blockTime : Option Nat)
  | clock (ms : Nat)
  | blocks (n : Nat)
  /-- Pause, ceiling changes, deposits, withdrawals, admin changes. -/
  | program (p : Program)
  /-- A harvest batch is confirmed. -/
  | harvest (batchId : Uuid) (txHash : TxHash)
  /-- A settled round is upserted. -/
  | epoch (r : SettledRound)
  deriving Repr

def inWindow (notBefore : Nat) (l : Landing) : Bool :=
  match l.blockTime with
  | none => true
  | some bt => decide (notBefore ≤ bt)

/-- A truthful answer of the sweep: only landed claims, and, when it reports to be
complete, every claim of the window that had landed when it was called. -/
def truthful (notBefore : Nat) (before landed : List Landing) (r : LandedClaims) : Bool :=
  r.claims.all (fun c => landed.any fun l => l.claim == c) &&
    (!r.complete || before.all fun l => !inWindow notBefore l || r.claims.contains l.claim)

/-- The clocks of the server and the validators differ by less than the tolerated skew. -/
def blockTimeOk (now : Nat) : Option Nat → Bool
  | none => true
  | some bt => decide (now ≤ bt * 1000 + CLOCK_SKEW_MS)

def tickStep (s : State) : Option Tick → TickAct → Option State
  | none, .readPending =>
      match findPending s.db with
      | [] => some s
      | c :: cs => some { s with tick := some (.pendingRead (c :: cs)) }
  | some (.pendingRead (c :: cs)), .callSweep =>
      some { s with tick := some (.sweeping (c :: cs) (notBeforeUnixTime c) s.height s.landed) }
  | some (.sweeping pending notBefore calledAt before), .sweepReturns r =>
      if truthful notBefore before s.landed r then
        some { s with tick := some (.swept pending calledAt r) }
      else none
  | some (.sweeping ..), .sweepThrows => some { s with tick := none }
  | some (.swept pending calledAt landed), .readUsed =>
      some { s with tick := some (.usedRead pending calledAt landed (usedSignatures s.db)) }
  | some (.usedRead pending calledAt landed used), .readHeight h =>
      if h ≤ s.height then some { s with tick := some (.resolving pending calledAt landed used h) }
      else none
  | some (.resolving (c :: cs) calledAt landed used height), .resolveNext fails =>
      let v := verdict landed used height s.now c
      some { s with
        db := if fails then s.db else resolve s.db c.id s.now v
        tick := if cs.isEmpty then none
          else some (.resolving cs calledAt landed (useHit used v) height) }
  | _, .crash => some { s with tick := none }
  | _, _ => none

def step (s : State) : Action → Option State
  | .request w => some { s with requests := s.requests ++ [.received w] }
  | .route i act => do
      let r ← s.requests[i]?
      let (db, r', handed) ← routeStep s.now s.program s.adminKey s.db r act
      pure { s with db := db, requests := s.requests.set i r',
                    vouchers := s.vouchers ++ handed.toList }
  | .tick act => tickStep s s.tick act
  | .land v sig slot bt =>
      if s.vouchers.contains v && s.landed.all (fun l => l.voucher != v && l.signature != sig) &&
          decide (s.height ≤ v.lastValidBlockHeight) && blockTimeOk s.now bt then
        match claimWinnings s.program v.admin v.wallet v.amount with
        | .error _ => none
        | .ok (p, _, _) => some { s with program := p, landed := ⟨v, sig, slot, bt⟩ :: s.landed }
      else none
  | .clock ms => some { s with now := s.now + ms }
  | .blocks n => some { s with height := s.height + n }
  | .program p => some { s with program := p }
  | .harvest b txHash => some { s with db := Harvest.finalizeBatchSuccess s.db b txHash s.now }
  | .epoch r => some { s with db := upsertSettledEpoch s.db r }

/-- Before the first claim: any tickets, orders and epochs, nothing bound. -/
structure Initial (s : State) : Prop where
  noClaims : s.db.payoutClaims = []
  unbound : ∀ t ∈ s.db.tickets, t.payoutClaimId = none
  ticketIds : (s.db.tickets.map (·.id)).Nodup
  noRequests : s.requests = []
  noVouchers : s.vouchers = []
  noLandings : s.landed = []
  noTick : s.tick = none

/-- A wallet with one harvested ticket of a revealed epoch. -/
def oneTicket : State :=
  { now := 1000000
    height := 1000
    program := { admin := "admin", maxClaimAmount := 1000, vaultUsdc := 1000 }
    adminKey := "admin"
    db :=
      { relayOrders := [{ hash := "order", signature := "sig", buyer := "w", fulfillEpoch := some 1,
                          status := .SUCCESS }]
        tickets := [{ id := "t", orderHash := "order", bonusBall := 1,
                      normalBalls := [1, 2, 3, 4, 5], winStatus := .CLAIMED_ON_BASE,
                      winAmount := 100 }]
        megapotEpochs := [{ megapotId := 1 }] } }

theorem initial_oneTicket : Initial oneTicket := by
  constructor <;> simp [oneTicket]

/-- Every interleaving of the steps of handlers, ticks and chain. -/
def machine : Machine State Action := ⟨Initial, step⟩

/-! ## Ticks taken as one step -/

/-- An action of the coarser machine: one action that is not the confirmer's, or the steps
of a whole tick. -/
inductive Block where
  | single (a : Action)
  | wholeTick (acts : List TickAct)
  deriving Repr

def Block.actions : Block → List Action
  | .single a => [a]
  | .wholeTick acts => acts.map .tick

/-- Every interleaving in which a tick, once begun, runs to its end. -/
def tickMachine : Machine State Block := machine.blocks Block.actions fun _ s => s.tick.isNone

end LordsPot.Payout
