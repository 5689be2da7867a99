import Mathlib.Data.List.Dedup
import Mathlib.Data.List.Sort
import LordsPot.Payout.Voucher

/-!
# The routes that show results

`GET /epochs`, `/epochs/:megapotId/winners`, `/epochs/:megapotId/winners/:buyer` and `/tickets` of
`protocol.ts`, `GET /summary` and `POST /voucher` of `claims.ts`, each as a function of the database
and the clock. A request carries its numbers and wallets as the route has parsed them: a number
that is missing or none is 0, and a wallet that does not parse is none. Amounts are numbers where
the answer has their texts.
-/

namespace LordsPot.Reveal

/-! ## Paging -/

/-- `n || fallback`. -/
def orElse (n fallback : Int) : Int := if n = 0 then fallback else n

/-- `take: n`; a negative one takes from the end. -/
def take {α : Type} (n : Int) (rows : List α) : List α :=
  if 0 ≤ n then rows.take n.toNat else rows.drop (rows.length - n.natAbs)

/-- `rows.slice(start, stop)`; a negative bound counts from the end. -/
def slice {α : Type} (rows : List α) (start stop : Int) : List α :=
  let bound (n : Int) : Nat := if 0 ≤ n then n.toNat else rows.length - n.natAbs
  (rows.take (bound stop)).drop (bound start)

/-! ## Answers -/

structure EpochEntry where
  megapotId : Nat
  lordsPotTicketCount : Nat
  totalTicketCount : Nat
  lordsPotWinnersCount : Nat
  totalWinnersCount : Nat
  totalPaidAmount : Int
  lordsPotPaidAmount : Nat
  jackpot : Int
  prizeTiers : Json
  topPrizeAmountUsdc : Int
  topPrizeWinnersCount : Nat
  normalMax : Option Nat
  bonusMax : Option Nat
  winningNormals : List Nat
  winningBonusBall : Nat
  settledAt : Nat
  deriving Repr

structure WinnerEntry where
  buyer : Wallet
  ticketCount : Nat
  totalUsdc : Nat
  deriving Repr, DecidableEq

structure WonTicket where
  normalBalls : List Nat
  bonusBall : Nat
  winStatus : WinStatus
  winAmountUsdc : Nat
  isFreeTicketTier : Bool
  deriving Repr, DecidableEq

structure TicketEntry where
  id : Uuid
  normalBalls : List Nat
  bonusBall : Nat
  winStatus : WinStatus
  winAmountUsdc : Nat
  isFreeTicketTier : Bool
  purchaseEpoch : Nat
  fulfillEpoch : Option Nat
  orderStatus : OrderStatus
  purchasedAt : Nat
  orderHash : Bytes32
  txSignature : Signature
  baseTxHash : Option TxHash
  epochEndedAt : Option Nat
  epochSettledAt : Option Nat
  epochWinningNormals : Option (List Nat)
  epochWinningBonusBall : Option Nat
  deriving Repr, DecidableEq

inductive Answer where
  | error (status : Nat) (error : String)
  | epochs (epochs : List EpochEntry) (nextCursor : Option Nat)
  | winners (megapotId : Nat) (winners : List WinnerEntry) (nextOffset : Option Int)
  | wonTickets (megapotId : Nat) (buyer : Wallet) (tickets : List WonTicket)
  | tickets (total : Nat) (limit offset : Int) (hasMore : Bool) (tickets : List TicketEntry)
  | summary (claimableUsdc freeTickets totalPaidOutUsdc : Nat) (pendingVoucher : Option (Nat × Nat))
  | reused (claimId : Uuid) (amountUsdc : Nat)
  | issued (voucher : Payout.Voucher)
  deriving Repr

/-! ## `protocol.ts` -/

/-- One entry of `GET /epochs`. -/
def epochEntry (e : MegapotEpoch) : EpochEntry where
  megapotId := e.megapotId
  lordsPotTicketCount := e.lordsPotTicketCount
  totalTicketCount := e.totalTicketCount
  lordsPotWinnersCount := e.lordsPotWinnersCount
  totalWinnersCount := e.totalWinnersCount
  totalPaidAmount := e.totalPaidAmount.getD 0
  lordsPotPaidAmount := e.lordsPotPaidAmount.getD 0
  jackpot := e.jackpot
  prizeTiers := e.prizeTiers
  topPrizeAmountUsdc := e.topPrizeAmount
  topPrizeWinnersCount := e.topPrizeWinnersCount
  normalMax := e.normalMax
  bonusMax := e.bonusMax
  winningNormals := e.winningNormals.insertionSort (· ≤ ·)
  winningBonusBall := e.winningBonusBall
  settledAt := e.drawnAt.getD e.createdAt

/-- `GET /epochs`. -/
def getEpochs (db : Db) (now : Nat) (limit cursor : Int) : Answer :=
  let limit := min (orElse limit 20) 50
  let epochs := take limit ((db.megapotEpochs.filter fun e =>
    revealedEpochWhere now e && (cursor == 0 || decide ((e.megapotId : Int) < cursor))).insertionSort
      fun e e' => e'.megapotId ≤ e.megapotId)
  .epochs (epochs.map epochEntry)
    (if (epochs.length : Int) = limit then epochs.getLast?.map (·.megapotId) else none)

def WINNING_STATUSES : List WinStatus :=
  [.WON_UNCLAIMED, .WON_FREE_TICKET, .CLAIMED_ON_BASE, .PAID_OUT_ON_SOLANA]

/-- `relayOrder: { fulfillEpoch: megapotId, status: 'SUCCESS' }`, with the order. -/
def orderOfEpoch (db : Db) (megapotId : Nat) (t : Ticket) : Option RelayOrder :=
  (db.relayOrder? t).filter fun o => o.fulfillEpoch == some megapotId && o.status == .SUCCESS

/-- One ticket added to `byBuyer`. -/
def addToBuyer (byBuyer : List WinnerEntry) (ticket : Wallet × Nat) : List WinnerEntry :=
  match byBuyer with
  | [] => [{ buyer := ticket.1, ticketCount := 1, totalUsdc := ticket.2 }]
  | entry :: rest =>
    if entry.buyer = ticket.1 then
      { entry with
        ticketCount := entry.ticketCount + 1
        totalUsdc := entry.totalUsdc + ticket.2 } :: rest
    else entry :: addToBuyer rest ticket

section Routes

-- `localeCompare` of two wallets, and the order of the database on ids.
variable (localeCompare : Wallet → Wallet → Ordering) (idLe : Uuid → Uuid → Bool)

/-- By amount, largest first, then by buyer. -/
def sortWinners (winners : List WinnerEntry) : List WinnerEntry :=
  winners.insertionSort fun a b =>
    b.totalUsdc < a.totalUsdc ∨ a.totalUsdc = b.totalUsdc ∧ localeCompare a.buyer b.buyer ≠ .gt

/-- `GET /epochs/:megapotId/winners`; no row has a negative id. -/
def getWinners (db : Db) (now : Nat) (megapotId : Option Int) (limit offset : Int) : Answer :=
  match megapotId with
  | none => .error 400 "Invalid epoch id"
  | some (.negSucc _) => .error 404 "Settled epoch not found"
  | some (.ofNat megapotId) =>
    if !isEpochRevealed db now megapotId then .error 404 "Settled epoch not found"
    else
      let limit := min (orElse limit 20) 50
      let offset := max (orElse offset 0) 0
      let tickets := db.tickets.filterMap fun t =>
        if WINNING_STATUSES.contains t.winStatus then
          (orderOfEpoch db megapotId t).map fun o => (o.buyer, t.winAmount)
        else none
      let allWinners := sortWinners localeCompare (tickets.foldl addToBuyer [])
      let page := slice allWinners offset (offset + limit)
      .winners megapotId page
        (if offset + page.length < allWinners.length then some (offset + page.length) else none)

def wonTicket (t : Ticket) : WonTicket :=
  { normalBalls := t.normalBalls, bonusBall := t.bonusBall, winStatus := t.winStatus,
    winAmountUsdc := t.winAmount, isFreeTicketTier := t.isFreeTicketTier }

/-- `GET /epochs/:megapotId/winners/:buyer`. -/
def getWinnersOfBuyer (db : Db) (now : Nat) (megapotId : Option Int) (buyer : Option Wallet) : Answer :=
  match megapotId with
  | none => .error 400 "Invalid epoch id"
  | some (.negSucc _) => .error 404 "Settled epoch not found"
  | some (.ofNat megapotId) =>
    if !isEpochRevealed db now megapotId then .error 404 "Settled epoch not found"
    else match buyer with
      | none => .error 400 "Invalid buyer wallet"
      | some buyer =>
        let tickets := (db.tickets.filter fun t =>
          (orderOfEpoch db megapotId t).any (·.buyer == buyer)).insertionSort fun t t' => idLe t.id t'.id
        if tickets.isEmpty then .error 404 "No tickets found for this buyer in this epoch"
        else .wonTickets megapotId buyer (tickets.map wonTicket)

/-- A ticket with its order, if the order is the wallet's. -/
def ownTicket (db : Db) (wallet : Wallet) (t : Ticket) : Option (RelayOrder × Ticket) :=
  ((db.relayOrder? t).filter (·.buyer == wallet)).map fun o => (o, t)

/-- One entry of `GET /tickets`. -/
def ticketEntry (epochById : Nat → Option MegapotEpoch) (revealedEpochIds : List Nat)
    (row : RelayOrder × Ticket) : TicketEntry :=
  let (o, t) := row
  let isRevealed := o.fulfillEpoch.all revealedEpochIds.contains
  let epoch := o.fulfillEpoch.bind epochById
  { id := t.id
    normalBalls := t.normalBalls
    bonusBall := t.bonusBall
    winStatus := if isRevealed then t.winStatus else .DRAW_PENDING
    winAmountUsdc := if isRevealed then t.winAmount else 0
    isFreeTicketTier := isRevealed && t.isFreeTicketTier
    purchaseEpoch := o.purchaseEpoch
    fulfillEpoch := o.fulfillEpoch
    orderStatus := o.status
    purchasedAt := o.lastBought
    orderHash := o.hash
    txSignature := o.signature
    baseTxHash := t.baseTxHash
    epochEndedAt := epoch.bind (·.endedAt)
    epochSettledAt := if isRevealed then epoch.bind (·.drawnAt) else none
    epochWinningNormals := if isRevealed then epoch.map (·.winningNormals) else none
    epochWinningBonusBall := if isRevealed then epoch.map (·.winningBonusBall) else none }

/-- `orderBy`, `skip` and `take` of `GET /tickets`: newest order first, then by id. -/
def ticketPage (own : List (RelayOrder × Ticket)) (limit offset : Int) : List (RelayOrder × Ticket) :=
  ((own.insertionSort fun r r' => r'.1.lastBought < r.1.lastBought ∨
    r.1.lastBought = r'.1.lastBought ∧ idLe r'.2.id r.2.id = true).drop offset.toNat).take limit.toNat

/-- The epochs of a page. -/
def epochsOf (db : Db) (tickets : List (RelayOrder × Ticket)) : List MegapotEpoch :=
  let epochIds := (tickets.filterMap (·.1.fulfillEpoch)).dedup
  if epochIds.isEmpty then [] else db.megapotEpochs.filter fun e => epochIds.contains e.megapotId

/-- `GET /tickets`. -/
def getTickets (db : Db) (now : Nat) (wallet : Option Wallet) (limit offset : Int) : Answer :=
  match wallet with
  | none => .error 400 "Invalid or missing wallet"
  | some wallet =>
    let limit := min (max (orElse limit 500) 1) 500
    let offset := max (orElse offset 0) 0
    let own := db.tickets.filterMap (ownTicket db wallet)
    let tickets := ticketPage idLe own limit offset
    let epochs := epochsOf db tickets
    let epochById := fun n => Table.findUnique MegapotEpoch.megapotId n epochs
    .tickets own.length limit offset (offset + tickets.length < own.length)
      (tickets.map (ticketEntry epochById (getRevealedEpochIds db now)))

end Routes

/-! ## `claims.ts` -/

/-- `GET /summary`. -/
def getSummary (db : Db) (now : Nat) (wallet : Option Wallet) : Answer :=
  match wallet with
  | none => .error 400 "Invalid or missing wallet"
  | some wallet =>
    let revealedEpochIds := getRevealedEpochIds db now
    .summary (Table.sumWhere (Payout.claimable db wallet revealedEpochIds) (·.winAmount) db.tickets)
      (db.tickets.filter fun t => t.winStatus == .CLAIMED_ON_BASE && t.isFreeTicketTier &&
        (db.relayOrder? t).any fun o =>
          o.buyer == wallet && o.fulfillEpoch.any revealedEpochIds.contains).length
      (Table.sumWhere (fun t => t.winStatus == .PAID_OUT_ON_SOLANA &&
        (db.relayOrder? t).any (·.buyer == wallet)) (·.winAmount) db.tickets)
      ((db.payoutClaims.find? fun c => c.wallet == wallet && c.status == .PENDING).map fun c =>
        (c.amountUsdc, c.createdAt))

/-- The text of an error of `POST /voucher` that follows the claim's deletion. -/
def voucherError : Nat → String
  | 404 => "Nothing to claim for this wallet"
  | 409 => "Claim amount exceeds the protocol payout ceiling — this has been flagged for review, please contact support."
  | 503 => "Unable to verify payout limits right now — try again shortly"
  | _ => "Failed to build claim voucher — try again"

/-- What a handler of `POST /voucher` answers at a step. -/
def response (db : Db) : Payout.Request → Payout.RouteAct → Option Answer
  | .received _, .gate true => some (.error 503
      "Claims are briefly paused during the epoch transition — retry shortly")
  | .admitted w, .findExisting => (Payout.findExisting db w).map fun c => .reused c.id c.amountUsdc
  | .stamped v, .handOut => some (.issued v)
  | .deleting _ status, .delete => some (.error status (voucherError status))
  | _, _ => none

/-- What a handler answers along its steps, with nothing in between; none when a step is not its
next one. -/
def serve (now : Nat) (program : Payout.Program) (adminKey : Wallet) :
    Db → Payout.Request → List Payout.RouteAct → Option (List Answer)
  | _, _, [] => some []
  | db, r, act :: acts =>
    (Payout.routeStep now program adminKey db r act).bind fun next =>
      (serve now program adminKey next.1 next.2.1 acts).map ((response db r act).toList ++ ·)

/-- `POST /voucher`, where `acts` is what the calls it makes answer. -/
def postVoucher (program : Payout.Program) (adminKey : Wallet) (db : Db) (now : Nat)
    (wallet : Option Wallet) (acts : List Payout.RouteAct) : Option (List Answer) :=
  match wallet with
  | none => some [.error 400 "Invalid or missing wallet"]
  | some wallet => serve now program adminKey db (.received wallet) acts

/-! ## Every request -/

inductive Request where
  | epochs (limit cursor : Int)
  | winners (megapotId : Option Int) (limit offset : Int)
  | winnersOfBuyer (megapotId : Option Int) (buyer : Option Wallet)
  | tickets (wallet : Option Wallet) (limit offset : Int)
  | summary (wallet : Option Wallet)
  | voucher (wallet : Option Wallet) (acts : List Payout.RouteAct)
  deriving Repr

/-- What answers a request apart from the database: the text orders, and the chain. -/
structure Env where
  localeCompare : Wallet → Wallet → Ordering
  idLe : Uuid → Uuid → Bool
  program : Payout.Program
  adminKey : Wallet

def answer (env : Env) (db : Db) (now : Nat) : Request → Option (List Answer)
  | .epochs limit cursor => some [getEpochs db now limit cursor]
  | .winners megapotId limit offset =>
      some [getWinners env.localeCompare db now megapotId limit offset]
  | .winnersOfBuyer megapotId buyer => some [getWinnersOfBuyer env.idLe db now megapotId buyer]
  | .tickets wallet limit offset => some [getTickets env.idLe db now wallet limit offset]
  | .summary wallet => some [getSummary db now wallet]
  | .voucher wallet acts => postVoucher env.program env.adminKey db now wallet acts

end LordsPot.Reveal
