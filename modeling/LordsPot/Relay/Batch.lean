import Mathlib.Data.List.Sort
import LordsPot.Schema

/-!
# Relay batches

A chunk's id on Base and the database writes of the relay worker, the confirmer and the
reconciler. `nextRetryAt`, which only the reconciler reads, is left out: the model lets a
job start at any time.
-/

namespace LordsPot.Relay

def RELAYABLE : List OrderStatus := [.QUEUED, .RETRY_PENDING, .DEFERRED, .SOLANA_CONFIRMED]
def baseTicketChunkSize : Nat := 15

/-- A ticket as the relay worker selects it. -/
structure ChunkTicket where
  id : Uuid
  normalBalls : List Nat
  bonusBall : Nat
  deriving Repr, DecidableEq

/-- The numbers a ticket is bought for. -/
def ChunkTicket.balls (c : ChunkTicket) : List Nat × Nat := (c.normalBalls, c.bonusBall)

def select (t : Ticket) : ChunkTicket :=
  { id := t.id, normalBalls := t.normalBalls, bonusBall := t.bonusBall }

/-- The text whose hash is a chunk's id. -/
def chunkKey (chunk : List ChunkTicket) : String :=
  ",".intercalate ((chunk.map (·.id)).insertionSort (· ≤ ·))

def deriveChunkOrderId (keccak256 : String → Bytes32) (chunk : List ChunkTicket) : Bytes32 :=
  keccak256 (chunkKey chunk)

/-- `pendingTickets.slice(i, i + chunkSize)` for every `i` of the loop. -/
def chunks (chunkSize : Nat) (pendingTickets : List ChunkTicket) : List (List ChunkTicket) :=
  (List.range ((pendingTickets.length + chunkSize - 1) / chunkSize)).map fun k =>
    (pendingTickets.drop (k * chunkSize)).take chunkSize

/-- A relay order changed by `relayOrder.update` or a guarded `relayOrder.updateMany`. -/
def updateOrder (db : Db) (hash : Bytes32) (statuses : List OrderStatus)
    (f : RelayOrder → RelayOrder) : Db :=
  { db with
    relayOrders := Table.updateMany (fun o => o.hash == hash && statuses.contains o.status) f
      db.relayOrders }

/-- No guard on the status. -/
def ANY : List OrderStatus :=
  [.SOLANA_CONFIRMED, .QUEUED, .DEFERRED, .PROCESSING, .BASE_SUBMITTED, .SUCCESS, .RETRY_PENDING,
    .FAILED_PERMANENT]

/-! ## Batches -/

/-- `relayBatch.create`. -/
def createBatch (db : Db) (id : Uuid) (orderHash : Bytes32) (batchIndex : Nat) : Db :=
  { db with
    relayBatches := db.relayBatches ++ [{ id := id, orderHash := orderHash, batchIndex := batchIndex }] }

/-- The update of `relayBatchId` that binds a chunk's tickets. -/
def bindChunk (db : Db) (batchId : Uuid) (chunk : List ChunkTicket) : Db :=
  { db with
    tickets := Table.updateMany (fun t => (chunk.map (·.id)).contains t.id)
      (fun t => { t with relayBatchId := some batchId }) db.tickets }

/-- `relayBatch.update({ data: { txHash } })`. -/
def setBatchTxHash (db : Db) (batchId : Uuid) (txHash : TxHash) : Db :=
  { db with
    relayBatches := Table.updateMany (·.id == batchId) (fun b => { b with txHash := some txHash })
      db.relayBatches }

/-- One `ticket.update` for each pair, in order. `finalizeOrderSuccess` leaves `baseTxHash`. -/
def stamp (baseTxHash : Option TxHash) (pairs : List (ChunkTicket × NftId)) (rows : List Ticket) :
    List Ticket :=
  pairs.foldl (fun rows pair =>
    Table.updateMany (·.id == pair.1.id)
      (fun t => { t with megapotNftId := some pair.2, baseTxHash := baseTxHash.or t.baseTxHash })
      rows) rows

def finalizeChunkSuccess (db : Db) (batchId : Uuid) (tickets : List ChunkTicket) (txHash : TxHash)
    (ticketIds : List NftId) : Db :=
  { db with
    relayBatches := Table.updateMany (·.id == batchId) (fun b => { b with status := .CONFIRMED })
      db.relayBatches
    tickets := stamp (some txHash) (tickets.zip ticketIds) db.tickets }

def releaseChunk (db : Db) (batchId : Uuid) (tickets : List ChunkTicket) (reason : String) : Db :=
  { db with
    tickets := Table.updateMany (fun t => (tickets.map (·.id)).contains t.id)
      (fun t => { t with relayBatchId := none }) db.tickets
    relayBatches := Table.updateMany (·.id == batchId)
      (fun b => { b with status := .FAILED, error := some (slice2000 reason) }) db.relayBatches }

/-! ## Orders -/

def deferOrder (db : Db) (hash : Bytes32) : Db :=
  updateOrder db hash ANY fun o =>
    { o with status := .DEFERRED, lastError := some "Megapot locked or protocol paused" }

def underfundOrder (db : Db) (hash : Bytes32) (balance amountUsdc : Nat) : Db :=
  updateOrder db hash ANY fun o =>
    { o with
      status := .RETRY_PENDING
      lastError := some s!"Insufficient Base vault USDC: have {balance}, need {amountUsdc}"
      attemptCount := o.attemptCount + 1 }

/-- The optimistic lock. -/
def lockOrder (db : Db) (hash : Bytes32) : Db :=
  updateOrder db hash RELAYABLE fun o => { o with status := .PROCESSING }

/-- `locked.count`. -/
def lockCount (db : Db) (hash : Bytes32) : Nat :=
  (db.relayOrders.filter fun o => o.hash == hash && RELAYABLE.contains o.status).length

/-- The worker's SUCCESS update. -/
def succeedOrder (db : Db) (hash : Bytes32) (round : Nat) (ticketIds : List NftId) : Db :=
  updateOrder db hash ANY fun o =>
    { o with status := .SUCCESS, fulfillEpoch := some round, megapotTicketIds := ticketIds,
             lastError := none }

/-- The statuses `finalizeOrderSuccess` may turn into SUCCESS. -/
def FINALIZABLE : List OrderStatus := [.BASE_SUBMITTED, .PROCESSING, .RETRY_PENDING]

def finalizable (db : Db) (hash : Bytes32) : Bool :=
  db.relayOrders.any fun o => o.hash == hash && FINALIZABLE.contains o.status

/-- The transaction of `finalizeOrderSuccess`; nothing is written when no order is updated. -/
def finalizeOrderSuccess (db : Db) (hash : Bytes32) (tickets : List ChunkTicket) (txHash : TxHash)
    (ticketIds : List NftId) (round : Option Nat) : Db :=
  if finalizable db hash then
    { updateOrder db hash FINALIZABLE (fun o =>
        { o with status := .SUCCESS, baseTxHash := some txHash, fulfillEpoch := round,
                 megapotTicketIds := ticketIds, lastError := none }) with
      tickets := stamp none (tickets.zip ticketIds) db.tickets }
  else db

def strandOrder (db : Db) (hash : Bytes32) : Db :=
  updateOrder db hash [.PROCESSING] fun o =>
    { o with
      status := .RETRY_PENDING
      lastError := some "Fulfilled on-chain but TicketsRouted event not found — needs ops review"
      attemptCount := o.attemptCount + 1 }

def pauseOrder (db : Db) (hash : Bytes32) (reason : String) : Db :=
  updateOrder db hash [.PROCESSING] fun o => { o with status := .DEFERRED, lastError := some reason }

def failOrder (db : Db) (hash : Bytes32) (isPermanent : Bool) (reason : String) : Db :=
  updateOrder db hash ANY fun o =>
    { o with
      status := if isPermanent then .FAILED_PERMANENT else .RETRY_PENDING
      lastError := some (slice2000 reason)
      attemptCount := o.attemptCount + 1 }

/-- The confirmer's retry. -/
def bounceToRetry (db : Db) (hash : Bytes32) (reason : String) : Db :=
  updateOrder db hash [.BASE_SUBMITTED] fun o =>
    { o with status := .RETRY_PENDING, lastError := some (slice2000 reason),
             attemptCount := o.attemptCount + 1 }

/-- The confirmer's permanent failure. -/
def rejectOrder (db : Db) (hash : Bytes32) (reason : String) : Db :=
  updateOrder db hash [.BASE_SUBMITTED] fun o =>
    { o with status := .FAILED_PERMANENT, lastError := some (slice2000 reason),
             attemptCount := o.attemptCount + 1 }

/-- The reconciler's reset of an order it found stuck. -/
def resetOrder (db : Db) (hash : Bytes32) : Db :=
  updateOrder db hash ANY fun o =>
    { o with status := .RETRY_PENDING, lastError := some "Processing timeout — reset by reconciler" }

/-- The reconciler's release of deferred orders. -/
def requeueDeferred (db : Db) : Db :=
  { db with
    relayOrders := Table.updateMany (·.status == .DEFERRED) (fun o => { o with status := .QUEUED })
      db.relayOrders }

end LordsPot.Relay
