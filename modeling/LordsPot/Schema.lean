import LordsPot.Library.Table

/-!
# The database

The rows of `schema.prisma` with the columns the workers and routes read or write, and
the database as one list per table. Ids, wallets, hashes and signatures are the texts
the columns hold; money is in 6-decimal units, a natural number wherever the backend
computes it and an integer in the columns of `MegapotEpoch` that are taken from Megapot's
answers; instants are milliseconds. `megapotNftId` holds the decimal text of a uint256 and
is read back with `BigInt`, so it is the number.
-/

namespace LordsPot

abbrev Uuid := String
abbrev Wallet := String
abbrev Signature := String
abbrev TxHash := String
abbrev Bytes32 := String
abbrev NftId := Nat

inductive OrderStatus where
  | SOLANA_CONFIRMED | QUEUED | DEFERRED | PROCESSING | BASE_SUBMITTED | SUCCESS
  | RETRY_PENDING | FAILED_PERMANENT
  deriving Repr, DecidableEq

/-- The statuses an order ends in. -/
def OrderStatus.finished (status : OrderStatus) : Bool :=
  status == .SUCCESS || status == .FAILED_PERMANENT

inductive WinStatus where
  | DRAW_PENDING | LOST | WON_UNCLAIMED | WON_FREE_TICKET | CLAIMED_ON_BASE | PAID_OUT_ON_SOLANA
  deriving Repr, DecidableEq

inductive HarvestStatus where
  | SUBMITTED | CONFIRMED | FAILED
  deriving Repr, DecidableEq

inductive PayoutStatus where
  | PENDING | CONFIRMED | EXPIRED | FAILED
  deriving Repr, DecidableEq

/-- What `JSON.parse` gives a number: the integers a double can hold, or any other double. -/
inductive JsNumber where
  | int (n : Int)
  | other
  deriving Repr, DecidableEq

/-- A `Json` column. -/
inductive Json where
  | null
  | bool (b : Bool)
  | num (n : JsNumber)
  | str (s : String)
  | arr (items : List Json)
  | obj (fields : List (String × Json))
  deriving Repr

structure RelayOrder where
  hash : Bytes32
  signature : Signature
  buyer : Wallet
  purchaseEpoch : Nat := 0
  fulfillEpoch : Option Nat := none
  amountUsdc : Nat := 0
  ticketCount : Nat := 0
  lastBought : Nat := 0
  status : OrderStatus := .SOLANA_CONFIRMED
  attemptCount : Nat := 0
  lastError : Option String := none
  baseTxHash : Option TxHash := none
  megapotTicketIds : List NftId := []
  deriving Repr, DecidableEq

structure RelayBatch where
  id : Uuid
  orderHash : Bytes32
  batchIndex : Nat
  txHash : Option TxHash := none
  status : HarvestStatus := .SUBMITTED
  error : Option String := none
  deriving Repr, DecidableEq

structure Ticket where
  id : Uuid
  orderHash : Bytes32
  bonusBall : Nat
  normalBalls : List Nat
  megapotNftId : Option NftId := none
  baseTxHash : Option TxHash := none
  winStatus : WinStatus := .DRAW_PENDING
  winAmount : Nat := 0
  isFreeTicketTier : Bool := false
  harvestBatchId : Option Uuid := none
  payoutClaimId : Option Uuid := none
  relayBatchId : Option Uuid := none
  deriving Repr, DecidableEq

/-- The columns that grading, harvest and payout write. -/
def Ticket.results (t : Ticket) : WinStatus × Nat × Bool × Option Uuid × Option Uuid :=
  (t.winStatus, t.winAmount, t.isFreeTicketTier, t.harvestBatchId, t.payoutClaimId)

structure MegapotEpoch where
  megapotId : Nat
  totalTicketCount : Nat := 0
  lordsPotTicketCount : Nat := 0
  totalWinnersCount : Nat := 0
  lordsPotWinnersCount : Nat := 0
  totalPaidAmount : Option Int := none
  lordsPotPaidAmount : Option Nat := none
  jackpot : Int := 0
  topPrizeAmount : Int := 0
  topPrizeWinnersCount : Nat := 0
  winningNormals : List Nat := []
  winningBonusBall : Nat := 0
  prizeTiers : Json := .null
  normalMax : Option Nat := none
  bonusMax : Option Nat := none
  endedAt : Option Nat := none
  drawnAt : Option Nat := none
  ticketsSettledAt : Option Nat := none
  ticketsHarvestedAt : Option Nat := none
  createdAt : Nat := 0
  deriving Repr

structure HarvestBatch where
  id : Uuid
  megapotId : Nat
  txHash : Option TxHash := none
  status : HarvestStatus := .SUBMITTED
  amountGross : Nat := 0
  error : Option String := none
  createdAt : Nat
  confirmedAt : Option Nat := none
  deriving Repr, DecidableEq

structure PayoutClaim where
  id : Uuid
  wallet : Wallet
  amountUsdc : Nat := 0
  status : PayoutStatus := .PENDING
  txSignature : Option Signature := none
  lastValidBlockHeight : Option Nat := none
  error : Option String := none
  createdAt : Nat
  confirmedAt : Option Nat := none
  deriving Repr, DecidableEq

structure Db where
  relayOrders : List RelayOrder := []
  relayBatches : List RelayBatch := []
  tickets : List Ticket := []
  megapotEpochs : List MegapotEpoch := []
  harvestBatches : List HarvestBatch := []
  payoutClaims : List PayoutClaim := []
  deriving Repr

namespace Db

/-- `relayOrder.findUnique`. -/
def order? (db : Db) (hash : Bytes32) : Option RelayOrder :=
  Table.findUnique RelayOrder.hash hash db.relayOrders

/-- A ticket's `relayOrder` relation. -/
def relayOrder? (db : Db) (t : Ticket) : Option RelayOrder := db.order? t.orderHash

/-- `relayOrder: { fulfillEpoch: megapotId, status: 'SUCCESS' }`. -/
def ofEpoch (db : Db) (megapotId : Nat) (t : Ticket) : Bool :=
  db.relayOrders.any fun o =>
    o.hash == t.orderHash && o.fulfillEpoch == some megapotId && o.status == .SUCCESS

theorem ofEpoch_iff {db : Db} {megapotId : Nat} {t : Ticket} : db.ofEpoch megapotId t = true ↔
    ∃ o ∈ db.relayOrders,
      o.hash = t.orderHash ∧ o.fulfillEpoch = some megapotId ∧ o.status = .SUCCESS := by
  simp [ofEpoch, and_assoc]

/-- `payoutClaim.findUnique`. -/
def claim? (db : Db) (id : Uuid) : Option PayoutClaim :=
  Table.findUnique PayoutClaim.id id db.payoutClaims

/-- The wallet that bought a ticket. -/
def buyer? (db : Db) (t : Ticket) : Option Wallet := (db.relayOrder? t).map (·.buyer)

end Db

/-- `reason.slice(0, 2000)`. -/
def slice2000 (reason : String) : String := String.ofList (reason.toList.take 2000)

end LordsPot
