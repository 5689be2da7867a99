import LordsPot.Library.Machine
import LordsPot.Relay.Batch

/-!
# The relay

The jobs of `baseRelayWorker`, the confirmer and the reconciler as the steps between their
awaits, over the database, the `buyTickets` transactions broadcast so far and Megapot's
current drawing. Any number of processes run at once, for any orders. Every await can fail,
every call can take effect although its answer is lost, a process can die anywhere, and a
read returns its rows in any order. `waitForReceipt` and `findExistingFulfillment` may miss
what is there; what they return is true.
-/

namespace LordsPot.Relay

open Transition

/-- What has become of a transaction. -/
inductive Outcome where
  | pending
  | reverted
  /-- Mined in this drawing, with these ids in its `TicketsRouted` event. -/
  | minted (drawing : Nat) (ticketIds : List NftId)
  deriving Repr, DecidableEq

/-- A `vault.buyTickets` transaction: its tickets in order, each with the row it came from,
and the batch row it was broadcast for, which orders of the single-transaction model do not
have. -/
structure BuyTx where
  hash : TxHash
  orderId : Bytes32
  tickets : List ChunkTicket
  batchId : Option Uuid := none
  outcome : Outcome := .pending
  deriving Repr, DecidableEq

inductive RevertClass where
  | already_processed
  | paused (reason : String)
  | permanent (reason : String)
  | transient (reason : String)
  deriving Repr, DecidableEq

/-- The columns of an order that a process keeps. -/
structure OrderRead where
  hash : Bytes32
  amountUsdc : Nat
  tickets : List ChunkTicket
  deriving Repr, DecidableEq

/-- A batch as `resolveInFlightBatches` reads it. -/
structure StuckBatch where
  id : Uuid
  txHash : Option TxHash
  tickets : List ChunkTicket
  deriving Repr, DecidableEq

/-- The loop a chunk is handled in: over the stuck batches, or over the new chunks. -/
inductive Loop where
  | stuck (rest : List StuckBatch)
  | fresh (batchIndex : Nat) (rest : List (List ChunkTicket))
  deriving Repr, DecidableEq

/-- Where a job stands inside its `try`. -/
inductive Phase where
  | findingStuck
  | awaiting (batchId : Uuid) (tickets : List ChunkTicket) (txHash : TxHash) (loop : Loop)
  | classifying (batchId : Uuid) (tickets : List ChunkTicket) (txHash : TxHash) (loop : Loop)
  | findingExisting (batchId : Uuid) (tickets : List ChunkTicket) (txHash : TxHash) (loop : Loop)
  | confirming (batchId : Uuid) (tickets : List ChunkTicket) (txHash : TxHash)
      (ticketIds : List NftId) (loop : Loop)
  | releasing (batchId : Uuid) (tickets : List ChunkTicket) (reason : String) (loop : Loop)
  | findingPending
  | counting (pendingTickets : List ChunkTicket)
  | creating (batchIndex : Nat) (chunk : List ChunkTicket) (rest : List (List ChunkTicket))
  | binding (batchId : Uuid) (batchIndex : Nat) (chunk : List ChunkTicket)
      (rest : List (List ChunkTicket))
  | submitting (batchId : Uuid) (batchIndex : Nat) (chunk : List ChunkTicket)
      (rest : List (List ChunkTicket))
  | recording (batchId : Uuid) (batchIndex : Nat) (chunk : List ChunkTicket) (txHash : TxHash)
      (rest : List (List ChunkTicket))
  | collecting
  | succeeding (allTicketIds : List NftId)
  deriving Repr, DecidableEq

/-- Where a process stands. -/
inductive Proc where
  | reading (hash : Bytes32)
  | gating (order : OrderRead)
  | deferring (hash : Bytes32)
  | funding (order : OrderRead) (round : Nat)
  | underfunded (hash : Bytes32) (balance amountUsdc : Nat)
  | locking (order : OrderRead) (round : Nat)
  | relaying (order : OrderRead) (round : Nat) (phase : Phase)
  | catching (order : OrderRead)
  | findingOrder (order : OrderRead)
  /-- `finalizeOrderSuccess`, before and after `getRoundState`. -/
  | readingRound (order : OrderRead) (txHash : TxHash) (ticketIds : List NftId)
  | finalizing (order : OrderRead) (txHash : TxHash) (ticketIds : List NftId) (round : Option Nat)
  | stranding (hash : Bytes32)
  | pausing (hash : Bytes32) (reason : String)
  | failing (hash : Bytes32) (isPermanent : Bool) (reason : String)
  /-- The confirmer. -/
  | confirmerReading (hash : Bytes32)
  | submitted (order : OrderRead) (baseTxHash : Option TxHash)
  | vanishing (hash : Bytes32)
  | confirmerClassifying (order : OrderRead) (txHash : TxHash)
  | confirmerFinding (order : OrderRead)
  | bouncing (hash : Bytes32) (reason : String)
  | rejecting (hash : Bytes32) (reason : String)
  /-- The reconciler, which found the order in PROCESSING. -/
  | resetting (hash : Bytes32)
  | ended
  deriving Repr, DecidableEq

structure State where
  db : Db
  /-- Megapot's current drawing. -/
  drawing : Nat
  txs : List BuyTx := []
  procs : List Proc := []
  deriving Repr

/-- The awaited call a process returns from, with the environment's part of it. -/
inductive Call where
  | read (tickets : List ChunkTicket)
  /-- `getActiveRound`, `isRoundLocked` and `isProtocolPaused`. -/
  | gate (round : Nat) (deferred : Bool)
  | balance (balance : Nat)
  | lock
  | findStuck (stuck : List StuckBatch)
  | receipt (success : Option Bool)
  | classify (cls : RevertClass)
  | findExisting (txHash : Option TxHash)
  | findPending (tickets : List ChunkTicket)
  | count
  | create (batchId : Uuid)
  | submit (txHash : TxHash)
  | collect (ticketIds : List NftId)
  | roundState (round : Option Nat)
  /-- The confirmer leaves its order alone for now. -/
  | wait
  /-- The confirmer's `getTransaction` does not know its transaction, or its time is up. -/
  | timeout
  /-- The database write the process is at. -/
  | write
  /-- The call throws without effect. -/
  | throw
  | crash
  deriving Repr, DecidableEq

inductive Action where
  | job (hash : Bytes32)
  | confirm (hash : Bytes32)
  | reset (hash : Bytes32)
  | requeue
  /-- Process `i` makes a call; when the answer is `lost`, the call throws after its effect. -/
  | call (i : Nat) (call : Call) (lost : Bool)
  | mine (hash : TxHash) (ticketIds : List NftId)
  | revert (hash : TxHash)
  | rollover (drawing : Nat)
  deriving Repr, DecidableEq

/-! ## The loops -/

/-- `resolveInFlightBatches` at the next batch. -/
def resolveBatches : List StuckBatch → Phase
  | [] => .findingPending
  | batch :: rest =>
    match batch.txHash with
    | none => .releasing batch.id batch.tickets
        "No txHash — broadcast never completed, releasing for retry" (.stuck rest)
    | some txHash => .awaiting batch.id batch.tickets txHash (.stuck rest)

/-- The chunk loop at the next chunk. -/
def submitChunks (batchIndex : Nat) : List (List ChunkTicket) → Phase
  | [] => .collecting
  | chunk :: rest => .creating batchIndex chunk rest

/-- After a chunk has been confirmed. -/
def Loop.next : Loop → Phase
  | .stuck rest => resolveBatches rest
  | .fresh batchIndex rest => submitChunks (batchIndex + 1) rest

/-- After a chunk has been released: `submitAndConfirmChunk` throws. -/
def Loop.released (order : OrderRead) (round : Nat) : Loop → Proc
  | .stuck rest => .relaying order round (resolveBatches rest)
  | .fresh .. => .catching order

def revertReason (txHash : TxHash) : RevertClass → String
  | .already_processed => s!"Tx {txHash} reverted on-chain (already_processed): Already processed, but fulfillment unrecoverable"
  | .paused reason => s!"Tx {txHash} reverted on-chain (paused): {reason}"
  | .permanent reason => s!"Tx {txHash} reverted on-chain (permanent): {reason}"
  | .transient reason => s!"Tx {txHash} reverted on-chain (transient): {reason}"

/-- Where a process goes when a call throws: into the job's `catch`, or to its end. -/
def Proc.thrown : Proc → Proc
  | .relaying order _ _ => .catching order
  | _ => .ended

/-! ## What the calls return -/

/-- A read of the tickets that meet `p`, in any order. -/
def returned (db : Db) (p : Ticket → Bool) (tickets : List ChunkTicket) : Bool :=
  tickets.isPerm ((db.tickets.filter p).map select)

/-- `relayOrder: { tickets }`. -/
def ofOrder (hash : Bytes32) (t : Ticket) : Bool := t.orderHash == hash

/-- `{ orderHash: hash, megapotNftId: null, relayBatchId: null }`. -/
def pending (hash : Bytes32) (t : Ticket) : Bool :=
  t.orderHash == hash && t.megapotNftId == none && t.relayBatchId == none

/-- The batches left in SUBMITTED with their tickets, in any order. -/
def returnedStuck (db : Db) (hash : Bytes32) (stuck : List StuckBatch) : Bool :=
  (stuck.map fun b => (b.id, b.txHash)).isPerm
      ((db.relayBatches.filter fun b => b.orderHash == hash && b.status == .SUBMITTED).map fun b =>
        (b.id, b.txHash)) &&
    stuck.all fun b => returned db (·.relayBatchId == some b.id) b.tickets

def BuyTx.ticketIds (tx : BuyTx) : Option (List NftId) :=
  match tx.outcome with
  | .minted _ ticketIds => some ticketIds
  | .pending | .reverted => none

/-- The ids in the receipt of a successful transaction, by its hash. -/
def mintedIds (txs : List BuyTx) (txHash : TxHash) : Option (List NftId) :=
  (txs.find? (·.hash == txHash)).bind (·.ticketIds)

def reverted (txs : List BuyTx) (txHash : TxHash) : Bool :=
  txs.any fun tx => tx.hash == txHash && tx.outcome == .reverted

/-- The ids in the `TicketsRouted` event of an order id, in the transaction of this hash. -/
def fulfillment (txs : List BuyTx) (orderId : Bytes32) (txHash : TxHash) : Option (List NftId) :=
  (txs.find? fun tx => tx.hash == txHash && tx.orderId == orderId).bind (·.ticketIds)

/-- `isOrderFulfilled[orderId]`. -/
def isOrderFulfilled (txs : List BuyTx) (orderId : Bytes32) : Bool :=
  txs.any fun tx => tx.orderId == orderId && tx.ticketIds.isSome

/-! ## The processes -/

section Steps

variable (keccak256 : String → Bytes32)

/-- A job inside its `try`. -/
def phaseStep (s : State) (order : OrderRead) (round : Nat) : Phase → Call → Option (State × Proc)
  | .findingStuck, .findStuck stuck =>
      if returnedStuck s.db order.hash stuck then
        some (s, .relaying order round (resolveBatches stuck))
      else none
  | .awaiting b tickets txHash loop, .receipt none =>
      some (s, .relaying order round
        (.releasing b tickets s!"Tx {txHash} unconfirmed after timeout" loop))
  | .awaiting b tickets txHash loop, .receipt (some true) =>
      (mintedIds s.txs txHash).map fun ticketIds =>
        (s, .relaying order round (.confirming b tickets txHash ticketIds loop))
  | .awaiting b tickets txHash loop, .receipt (some false) =>
      if reverted s.txs txHash then
        some (s, .relaying order round (.classifying b tickets txHash loop))
      else none
  | .classifying b tickets txHash loop, .classify cls =>
      some (s, .relaying order round (match cls with
        | .already_processed => .findingExisting b tickets txHash loop
        | cls => .releasing b tickets (revertReason txHash cls) loop))
  | .findingExisting b tickets txHash loop, .findExisting none =>
      some (s, .relaying order round
        (.releasing b tickets (revertReason txHash .already_processed) loop))
  | .findingExisting b tickets _ loop, .findExisting (some existing) =>
      (fulfillment s.txs (deriveChunkOrderId keccak256 tickets) existing).map fun ticketIds =>
        (s, .relaying order round (.confirming b tickets existing ticketIds loop))
  | .confirming b tickets txHash ticketIds loop, .write =>
      some ({ s with db := finalizeChunkSuccess s.db b tickets txHash ticketIds },
        .relaying order round loop.next)
  | .releasing b tickets reason loop, .write =>
      some ({ s with db := releaseChunk s.db b tickets reason }, loop.released order round)
  | .findingPending, .findPending tickets =>
      if returned s.db (pending order.hash) tickets then
        some (s, .relaying order round
          (if tickets.isEmpty then .collecting else .counting tickets))
      else none
  | .counting tickets, .count =>
      some (s, .relaying order round
        (submitChunks (s.db.relayBatches.filter (·.orderHash == order.hash)).length
          (chunks baseTicketChunkSize tickets)))
  | .creating batchIndex chunk rest, .create b =>
      if s.db.relayBatches.all (·.id != b) then
        some ({ s with db := createBatch s.db b order.hash batchIndex },
          .relaying order round (.binding b batchIndex chunk rest))
      else none
  | .binding b batchIndex chunk rest, .write =>
      some ({ s with db := bindChunk s.db b chunk },
        .relaying order round (.submitting b batchIndex chunk rest))
  | .submitting b batchIndex chunk rest, .submit txHash =>
      if s.txs.all (·.hash != txHash) then
        some ({ s with
            txs := s.txs ++ [{ hash := txHash, orderId := deriveChunkOrderId keccak256 chunk,
                               tickets := chunk, batchId := some b }] },
          .relaying order round (.recording b batchIndex chunk txHash rest))
      else none
  | .recording b batchIndex chunk txHash rest, .write =>
      some ({ s with db := setBatchTxHash s.db b txHash },
        .relaying order round (.awaiting b chunk txHash (.fresh batchIndex rest)))
  | .collecting, .collect ticketIds =>
      if ticketIds.isPerm
          ((s.db.tickets.filter (ofOrder order.hash)).filterMap (·.megapotNftId)) then
        some (s, .relaying order round (.succeeding ticketIds))
      else none
  | .succeeding ticketIds, .write =>
      some ({ s with db := succeedOrder s.db order.hash round ticketIds }, .ended)
  | _, _ => none

def procStep (s : State) : Proc → Call → Option (State × Proc)
  | .reading hash, .read tickets =>
      match s.db.order? hash with
      | none => some (s, .ended)
      | some o =>
        if returned s.db (ofOrder hash) tickets then
          some (s, if RELAYABLE.contains o.status then
              .gating { hash := hash, amountUsdc := o.amountUsdc, tickets := tickets }
            else .ended)
        else none
  | .gating order, .gate round deferred =>
      some (s, if deferred then .deferring order.hash else .funding order round)
  | .deferring hash, .write => some ({ s with db := deferOrder s.db hash }, .ended)
  | .funding order round, .balance balance =>
      some (s, if balance < order.amountUsdc then .underfunded order.hash balance order.amountUsdc
        else .locking order round)
  | .underfunded hash balance amountUsdc, .write =>
      some ({ s with db := underfundOrder s.db hash balance amountUsdc }, .ended)
  | .locking order round, .lock =>
      some ({ s with db := lockOrder s.db order.hash },
        if lockCount s.db order.hash = 0 then .ended else .relaying order round .findingStuck)
  | .catching order, .classify cls =>
      some (s, match cls with
        | .already_processed => .findingOrder order
        | .paused reason => .pausing order.hash reason
        | .permanent reason => .failing order.hash true reason
        | .transient reason => .failing order.hash false reason)
  | .findingOrder order, .findExisting none => some (s, .stranding order.hash)
  | .findingOrder order, .findExisting (some existing) =>
      (fulfillment s.txs order.hash existing).map fun ticketIds =>
        (s, .readingRound order existing ticketIds)
  | .readingRound order txHash ticketIds, .roundState round =>
      some (s, .finalizing order txHash ticketIds round)
  | .finalizing order txHash ticketIds round, .write =>
      some ({ s with
          db := finalizeOrderSuccess s.db order.hash order.tickets txHash ticketIds round }, .ended)
  | .stranding hash, .write => some ({ s with db := strandOrder s.db hash }, .ended)
  | .pausing hash reason, .write => some ({ s with db := pauseOrder s.db hash reason }, .ended)
  | .failing hash isPermanent reason, .write =>
      some ({ s with db := failOrder s.db hash isPermanent reason }, .ended)
  | .confirmerReading hash, .read tickets =>
      match s.db.order? hash with
      | none => some (s, .ended)
      | some o =>
        if returned s.db (ofOrder hash) tickets then
          some (s, if o.status = .BASE_SUBMITTED then
              .submitted { hash := hash, amountUsdc := o.amountUsdc, tickets := tickets } o.baseTxHash
            else .ended)
        else none
  | .submitted _ none, .wait => some (s, .ended)
  | .submitted order none, .timeout =>
      some (s, .bouncing order.hash "BASE_SUBMITTED without txHash — resetting for safe retry")
  | .submitted order (some _), .receipt none => some (s, .vanishing order.hash)
  | .submitted order (some txHash), .receipt (some true) =>
      (mintedIds s.txs txHash).map fun ticketIds => (s, .readingRound order txHash ticketIds)
  | .submitted order (some txHash), .receipt (some false) =>
      if reverted s.txs txHash then some (s, .confirmerClassifying order txHash) else none
  | .vanishing _, .wait => some (s, .ended)
  | .vanishing hash, .timeout =>
      some (s, .bouncing hash "Broadcast tx dropped from mempool — resubmitting")
  | .confirmerClassifying order _, .classify cls =>
      some (s, match cls with
        | .already_processed => .confirmerFinding order
        | .permanent reason => .rejecting order.hash reason
        | .paused reason | .transient reason => .bouncing order.hash reason)
  | .confirmerFinding order, .findExisting none =>
      some (s, .bouncing order.hash
        "Revert says already processed, but fulfillment event not found yet")
  | .confirmerFinding order, .findExisting (some existing) =>
      (fulfillment s.txs order.hash existing).map fun ticketIds =>
        (s, .readingRound order existing ticketIds)
  | .bouncing hash reason, .write => some ({ s with db := bounceToRetry s.db hash reason }, .ended)
  | .rejecting hash reason, .write => some ({ s with db := rejectOrder s.db hash reason }, .ended)
  | .resetting hash, .write => some ({ s with db := resetOrder s.db hash }, .ended)
  | p, .throw => some (s, p.thrown)
  | _, .crash => some (s, .ended)
  | .relaying order round phase, call => phaseStep keccak256 s order round phase call
  | _, _ => none

/-- A transaction of the mempool is mined in the current drawing; every ticket gets an id that
no other ticket has. -/
def canMine (s : State) (hash : TxHash) (ticketIds : List NftId) : Bool :=
  decide ticketIds.Nodup &&
    (s.txs.all fun tx => tx.ticketIds.all fun old => ticketIds.all fun n => !old.contains n) &&
    s.txs.any fun tx => tx.hash == hash && tx.outcome == .pending &&
      !isOrderFulfilled s.txs tx.orderId && tx.tickets.length == ticketIds.length

def step (s : State) : Action → Option State
  | .job hash => some { s with procs := s.procs ++ [.reading hash] }
  | .confirm hash => some { s with procs := s.procs ++ [.confirmerReading hash] }
  | .reset hash =>
      if s.db.relayOrders.any fun o => o.hash == hash && o.status == .PROCESSING then
        some { s with procs := s.procs ++ [.resetting hash] }
      else none
  | .requeue => some { s with db := requeueDeferred s.db }
  | .call i call lost => do
      let p ← s.procs[i]?
      let (s', p') ← procStep keccak256 s p call
      pure { s' with procs := s.procs.set i (if lost then p.thrown else p') }
  | .mine hash ticketIds =>
      if canMine s hash ticketIds then
        some { s with
          txs := Table.updateMany (·.hash == hash)
            (fun tx => { tx with outcome := .minted s.drawing ticketIds }) s.txs }
      else none
  | .revert hash =>
      some { s with
        txs := Table.updateMany (fun tx => tx.hash == hash && tx.outcome == .pending)
          (fun tx => { tx with outcome := .reverted }) s.txs }
  | .rollover drawing => if s.drawing < drawing then some { s with drawing := drawing } else none

/-- Any orders that have not been relayed yet, or whose single transaction, with all the
order's tickets under the order's own hash, is still under way. Order hashes are hashes of
Solana signatures, and ticket ids are uuids. -/
structure Initial (s : State) : Prop where
  orderHashes : (s.db.relayOrders.map (·.hash)).Nodup
  ticketIds : (s.db.tickets.map (·.id)).Nodup
  hashed : ∀ o ∈ s.db.relayOrders, o.hash = keccak256 o.signature
  signatures : ∀ o ∈ s.db.relayOrders, '-' ∉ o.signature.toList ∧ o.signature ≠ ""
  uuids : ∀ t ∈ s.db.tickets, '-' ∈ t.id.toList ∧ ',' ∉ t.id.toList
  notDone : ∀ o ∈ s.db.relayOrders, o.status ≠ .SUCCESS
  unstamped : ∀ t ∈ s.db.tickets, t.megapotNftId = none
  unbound : ∀ t ∈ s.db.tickets, t.relayBatchId = none
  noBatches : s.db.relayBatches = []
  txHashes : (s.txs.map (·.hash)).Nodup
  single : ∀ tx ∈ s.txs, tx.batchId = none ∧ tx.outcome = .pending ∧
    ∃ o ∈ s.db.relayOrders, tx.orderId = o.hash ∧
      tx.tickets.Perm ((s.db.tickets.filter (ofOrder o.hash)).map select)
  recorded : ∀ o ∈ s.db.relayOrders, ∀ h, o.baseTxHash = some h →
    ∃ tx ∈ s.txs, tx.hash = h ∧ tx.orderId = o.hash
  noProcs : s.procs = []

/-- Every interleaving of the steps of jobs, confirmer, reconciler and chain. -/
def machine : Machine State Action := ⟨Initial keccak256, step keccak256⟩

end Steps

/-! ## One order, waiting for the relay -/

/-- One order with these tickets. -/
def queued (tickets : List ChunkTicket) : State where
  db := {
    relayOrders := [{ hash := "signature", signature := "signature", buyer := "w", status := .QUEUED }]
    tickets := tickets.map fun c =>
      { id := c.id, orderHash := "signature", bonusBall := c.bonusBall, normalBalls := c.normalBalls } }
  drawing := 1

/-- Where a run needs a concrete `keccak256`, the identity is one without collisions. -/
theorem initial_queued (tickets : List ChunkTicket) (distinct : (tickets.map (·.id)).Nodup)
    (uuids : ∀ c ∈ tickets, '-' ∈ c.id.toList ∧ ',' ∉ c.id.toList) : Initial id (queued tickets) where
  orderHashes := List.nodup_singleton _
  ticketIds := by
    rw [queued, List.map_map]
    exact distinct
  hashed o ho := by cases List.mem_singleton.1 ho; rfl
  signatures o ho := by cases List.mem_singleton.1 ho; decide
  uuids t ht := by
    obtain ⟨c, hc, rfl⟩ := List.mem_map.1 ht
    exact uuids c hc
  notDone o ho := by cases List.mem_singleton.1 ho; decide
  unstamped t ht := by obtain ⟨c, hc, rfl⟩ := List.mem_map.1 ht; rfl
  unbound t ht := by obtain ⟨c, hc, rfl⟩ := List.mem_map.1 ht; rfl
  noBatches := rfl
  txHashes := List.nodup_nil
  single := nofun
  recorded o ho h hh := by cases List.mem_singleton.1 ho; cases hh
  noProcs := rfl

/-- Tickets of the same numbers. -/
def alike (ids : List Uuid) : List ChunkTicket :=
  ids.map fun id => { id := id, normalBalls := [1, 2, 3, 4, 5], bonusBall := 1 }

/-- A ticket more than a chunk holds. -/
def twoChunks : List ChunkTicket :=
  alike ["a-", "b-", "c-", "d-", "e-", "f-", "g-", "h-", "i-", "j-", "k-", "l-", "m-", "n-", "o-", "p-"]

theorem initial_twoChunks : Initial id (queued twoChunks) :=
  initial_queued twoChunks (by decide +kernel) (by decide +kernel)

/-- Job `i` up to the lock, in this round. -/
def lockJob (i round : Nat) (tickets : List ChunkTicket) : List Action :=
  .job "signature" ::
    [.read tickets, .gate round false, .balance 0, .lock].map fun call => .call i call false

/-- The broadcast of the first chunk of the pending tickets. -/
def sendChunk (i : Nat) (tickets : List ChunkTicket) (b : Uuid) (txHash : TxHash) : List Action :=
  [.findPending tickets, .count, .create b, .write, .submit txHash].map fun call => .call i call false

end LordsPot.Relay
