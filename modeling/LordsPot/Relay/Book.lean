import LordsPot.Relay.ChunkId
import LordsPot.Relay.Effect

/-!
# The relay's book

What holds in every state of the relay, whatever the environment does: the tickets a
process has in hand are rows of the table, the hash on a batch is that of a transaction
with all the tickets bound to the batch, a receipt or an event belongs to a transaction
that covers the tickets it is read for, and a stamped ticket has been minted.
-/

namespace LordsPot.Relay

open Transition

/-! ## What is in hand -/

def Loop.inHand : Loop → List ChunkTicket
  | .stuck rest => rest.flatMap (·.tickets)
  | .fresh _ rest => rest.flatten

def Phase.inHand : Phase → List ChunkTicket
  | .awaiting _ tickets _ loop | .classifying _ tickets _ loop | .findingExisting _ tickets _ loop
  | .confirming _ tickets _ _ loop | .releasing _ tickets _ loop => tickets ++ loop.inHand
  | .counting tickets => tickets
  | .creating _ chunk rest | .binding _ _ chunk rest | .submitting _ _ chunk rest
  | .recording _ _ chunk _ rest => chunk ++ rest.flatten
  | .findingStuck | .findingPending | .collecting | .succeeding _ => []

/-- The order a process works on, as it read it. -/
def Proc.order? : Proc → Option OrderRead
  | .relaying order _ _ | .gating order | .funding order _ | .locking order _ | .catching order
  | .findingOrder order | .readingRound order _ _ | .finalizing order _ _ _ | .submitted order _
  | .confirmerClassifying order _ | .confirmerFinding order => some order
  | .reading _ | .deferring _ | .underfunded .. | .stranding _ | .pausing .. | .failing ..
  | .confirmerReading _ | .vanishing _ | .bouncing .. | .rejecting .. | .resetting _ | .ended => none

def Proc.inHand : Proc → List ChunkTicket
  | .relaying order _ phase => order.tickets ++ phase.inHand
  | .gating order | .funding order _ | .locking order _ | .catching order | .findingOrder order
  | .readingRound order _ _ | .finalizing order _ _ _ | .submitted order _
  | .confirmerClassifying order _ | .confirmerFinding order => order.tickets
  | .reading _ | .deferring _ | .underfunded .. | .stranding _ | .pausing .. | .failing ..
  | .confirmerReading _ | .vanishing _ | .bouncing .. | .rejecting .. | .resetting _ | .ended => []

/-- The batch a process is going to broadcast for. -/
def Proc.owns : Proc → Option Uuid
  | .relaying _ _ (.binding b _ _ _) | .relaying _ _ (.submitting b _ _ _) => some b
  | _ => none

/-! ## What is known -/

/-- These tickets are rows of the table. -/
def Rows (db : Db) (tickets : List ChunkTicket) : Prop := ∀ c ∈ tickets, c ∈ db.tickets.map select

/-- An order of the table, with rows of its own. -/
def OrderRows (db : Db) (order : OrderRead) : Prop :=
  order.hash ∈ db.relayOrders.map (·.hash) ∧
    ∀ c ∈ order.tickets, ∀ t ∈ db.tickets, t.id = c.id → t.orderHash = order.hash

/-- The transaction has all these tickets. -/
def BuyTx.Covers (tx : BuyTx) (tickets : List ChunkTicket) : Prop :=
  ∀ c ∈ tickets, c.id ∈ tx.tickets.map (·.id)

/-- The transaction has all tickets of an order, whose hash is its order id. -/
def Whole (db : Db) (tx : BuyTx) : Prop :=
  ∃ o ∈ db.relayOrders, tx.orderId = o.hash ∧
    ∀ t ∈ db.tickets, t.orderHash = o.hash → t.id ∈ tx.tickets.map (·.id)

/-- A stuck batch's tickets are in the transaction of its hash. -/
def StuckOk (txs : List BuyTx) (batch : StuckBatch) : Prop :=
  ∀ h, batch.txHash = some h → ∃ tx ∈ txs, tx.hash = h ∧ tx.Covers batch.tickets

/-- What is known of the stuck batches that are left, or of the batch's own transaction. -/
def LoopOk (txs : List BuyTx) (b : Uuid) (tickets : List ChunkTicket) : Loop → Prop
  | .stuck rest => ∀ batch ∈ rest, StuckOk txs batch
  | .fresh .. => ∃ tx ∈ txs, tx.batchId = some b ∧ tx.tickets = tickets

def PhaseOk (db : Db) (txs : List BuyTx) : Phase → Prop
  | .awaiting b tickets h loop =>
      (∃ tx ∈ txs, tx.hash = h ∧ tx.Covers tickets) ∧ LoopOk txs b tickets loop
  | .classifying b tickets _ loop | .findingExisting b tickets _ loop
  | .releasing b tickets _ loop => LoopOk txs b tickets loop
  | .confirming b tickets h ticketIds loop =>
      (∃ tx ∈ txs, tx.hash = h ∧ tx.ticketIds = some ticketIds ∧ tx.Covers tickets) ∧
        LoopOk txs b tickets loop
  | .binding b _ _ _ => ∀ t ∈ db.tickets, t.relayBatchId ≠ some b
  | .submitting b _ chunk _ =>
      ∀ t ∈ db.tickets, t.relayBatchId = some b → t.id ∈ chunk.map (·.id)
  | .recording b _ chunk h _ => ∃ tx ∈ txs, tx.hash = h ∧ tx.batchId = some b ∧ tx.tickets = chunk
  | .findingStuck | .findingPending | .counting _ | .creating .. | .collecting | .succeeding _ => True

/-- A transaction of the order's own hash, with these ids. -/
def Fulfilled (txs : List BuyTx) (order : OrderRead) (h : TxHash) (ticketIds : List NftId) : Prop :=
  ∃ tx ∈ txs, tx.hash = h ∧ tx.orderId = order.hash ∧ tx.ticketIds = some ticketIds

def ProcOk (db : Db) (txs : List BuyTx) : Proc → Prop
  | .relaying _ _ phase => PhaseOk db txs phase
  | .readingRound order h ticketIds | .finalizing order h ticketIds _ =>
      Fulfilled txs order h ticketIds
  | .submitted order (some h) => ∃ tx ∈ txs, tx.hash = h ∧ tx.orderId = order.hash
  | _ => True

structure Book (keccak256 : String → Bytes32) (s : State) : Prop where
  ticketIds : (s.db.tickets.map (·.id)).Nodup
  orderHashes : (s.db.relayOrders.map (·.hash)).Nodup
  hashed : ∀ o ∈ s.db.relayOrders,
    o.hash = keccak256 o.signature ∧ '-' ∉ o.signature.toList ∧ o.signature ≠ ""
  uuids : ∀ c ∈ s.db.tickets.map select, UuidLike c
  txHashes : (s.txs.map (·.hash)).Nodup
  txRows : ∀ tx ∈ s.txs, Rows s.db tx.tickets
  kinds : ∀ tx ∈ s.txs, Whole s.db tx ∨ tx.orderId = deriveChunkOrderId keccak256 tx.tickets
  oneTx : ∀ tx ∈ s.txs, ∀ tx' ∈ s.txs, ∀ b, tx.batchId = some b → tx'.batchId = some b → tx = tx'
  bound : ∀ tx ∈ s.txs, ∀ b, tx.batchId = some b → ∀ t ∈ s.db.tickets, t.relayBatchId = some b →
    t.id ∈ tx.tickets.map (·.id)
  batchHashes : ∀ b ∈ s.db.relayBatches, ∀ h, b.txHash = some h →
    ∃ tx ∈ s.txs, tx.hash = h ∧ tx.batchId = some b.id
  orderTxs : ∀ o ∈ s.db.relayOrders, ∀ h, o.baseTxHash = some h →
    ∃ tx ∈ s.txs, tx.hash = h ∧ tx.orderId = o.hash
  boundBatches : ∀ t ∈ s.db.tickets, ∀ b, t.relayBatchId = some b →
    b ∈ s.db.relayBatches.map (·.id)
  txBatches : ∀ tx ∈ s.txs, ∀ b, tx.batchId = some b → b ∈ s.db.relayBatches.map (·.id)
  stamped : ∀ t ∈ s.db.tickets, ∀ n, t.megapotNftId = some n →
    ∃ tx ∈ s.txs, tx.ticketIds.isSome ∧ t.id ∈ tx.tickets.map (·.id)
  inHand : ∀ p ∈ s.procs, Rows s.db p.inHand
  orders : ∀ p ∈ s.procs, ∀ order, p.order? = some order → OrderRows s.db order
  procs : ∀ p ∈ s.procs, ProcOk s.db s.txs p
  owners : ∀ p ∈ s.procs, ∀ b, p.owns = some b →
    b ∈ s.db.relayBatches.map (·.id) ∧ ∀ tx ∈ s.txs, tx.batchId ≠ some b
  apart : ∀ (i j : Nat) (p q : Proc), s.procs[i]? = some p → s.procs[j]? = some q → i ≠ j →
    ∀ b, p.owns = some b → q.owns ≠ some b

/-! ## What stays known -/

/-- The same transaction later: ids stay once they are minted. -/
def Later (tx tx' : BuyTx) : Prop :=
  tx'.hash = tx.hash ∧ tx'.orderId = tx.orderId ∧ tx'.tickets = tx.tickets ∧
    tx'.batchId = tx.batchId ∧
    ∀ ticketIds, tx.ticketIds = some ticketIds → tx'.ticketIds = some ticketIds

def Grown (txs txs' : List BuyTx) : Prop := ∀ tx ∈ txs, ∃ tx' ∈ txs', Later tx tx'

/-- Tickets keep their columns, and a batch of `others` gains no ticket. -/
structure Kept (db db' : Db) (others : Uuid → Prop) : Prop where
  columns : db'.tickets.map select = db.tickets.map select
  bound : ∀ b, others b → ∀ t' ∈ db'.tickets, t'.relayBatchId = some b →
    ∃ t ∈ db.tickets, t.id = t'.id ∧ t.relayBatchId = some b

theorem Grown.refl (txs : List BuyTx) : Grown txs txs := fun tx h =>
  ⟨tx, h, rfl, rfl, rfl, rfl, fun _ => id⟩

theorem Grown.append (txs : List BuyTx) (tx : BuyTx) : Grown txs (txs ++ [tx]) := fun x h =>
  ⟨x, List.mem_append_left _ h, rfl, rfl, rfl, rfl, fun _ => id⟩

theorem Grown.updateMany {txs : List BuyTx} {q : BuyTx → Bool} {f : BuyTx → BuyTx}
    (keep : ∀ tx ∈ txs, q tx = true → Later tx (f tx)) : Grown txs (Table.updateMany q f txs) := by
  intro tx htx
  refine ⟨_, Table.mem_updateMany.2 ⟨tx, htx, rfl⟩, ?_⟩
  split
  · rename_i hq
    exact keep tx htx hq
  · exact ⟨rfl, rfl, rfl, rfl, fun _ => id⟩

section Keeps

variable {db db' : Db} {txs txs' : List BuyTx} {others : Uuid → Prop}

theorem Rows.kept (columns : db'.tickets.map select = db.tickets.map select)
    {tickets : List ChunkTicket} (h : Rows db tickets) : Rows db' tickets := by
  rw [Rows, columns]
  exact h

theorem StuckOk.grown (g : Grown txs txs') {batch : StuckBatch} (h : StuckOk txs batch) :
    StuckOk txs' batch := by
  intro hash hh
  obtain ⟨tx, htx, he, covers⟩ := h hash hh
  obtain ⟨tx', htx', hash', -, tickets, -⟩ := g tx htx
  exact ⟨tx', htx', hash'.trans he, by rwa [BuyTx.Covers, tickets]⟩

theorem LoopOk.grown (g : Grown txs txs') {b : Uuid} {tickets : List ChunkTicket} {loop : Loop}
    (h : LoopOk txs b tickets loop) : LoopOk txs' b tickets loop := by
  cases loop with
  | stuck rest => exact fun batch hb => (h batch hb).grown g
  | fresh =>
    obtain ⟨tx, htx, hb, hc⟩ := h
    obtain ⟨tx', htx', -, -, tickets, batch, -⟩ := g tx htx
    exact ⟨tx', htx', batch.trans hb, tickets.trans hc⟩

theorem Fulfilled.grown (g : Grown txs txs') {order : OrderRead} {h : TxHash} {ticketIds : List NftId}
    (hf : Fulfilled txs order h ticketIds) : Fulfilled txs' order h ticketIds := by
  obtain ⟨tx, htx, hh, ho, hi⟩ := hf
  obtain ⟨tx', htx', hash, orderId, -, -, ids⟩ := g tx htx
  exact ⟨tx', htx', hash.trans hh, orderId.trans ho, ids _ hi⟩

/-- What a process knows stays known, unless its own batch gains tickets. -/
theorem ProcOk.keeps (k : Kept db db' others) (g : Grown txs txs') {p : Proc}
    (own : ∀ b, p.owns = some b → others b) (h : ProcOk db txs p) : ProcOk db' txs' p := by
  have covered : ∀ {hash : TxHash} {tickets : List ChunkTicket},
      (∃ tx ∈ txs, tx.hash = hash ∧ tx.Covers tickets) →
        ∃ tx ∈ txs', tx.hash = hash ∧ tx.Covers tickets := by
    rintro hash tickets ⟨tx, htx, hh, hc⟩
    obtain ⟨tx', htx', hash', -, he, -⟩ := g tx htx
    exact ⟨tx', htx', hash'.trans hh, by rwa [BuyTx.Covers, he]⟩
  cases p with
  | relaying order round phase =>
    cases phase with
    | awaiting b tickets hash loop => exact ⟨covered h.1, h.2.grown g⟩
    | classifying b tickets hash loop => exact LoopOk.grown g h
    | findingExisting b tickets hash loop => exact LoopOk.grown g h
    | releasing b tickets reason loop => exact LoopOk.grown g h
    | confirming b tickets hash ticketIds loop =>
      obtain ⟨⟨tx, htx, hh, hi, hc⟩, hl⟩ := h
      obtain ⟨tx', htx', hash', -, he, -, ids⟩ := g tx htx
      exact ⟨⟨tx', htx', hash'.trans hh, ids _ hi, by rwa [BuyTx.Covers, he]⟩, hl.grown g⟩
    | binding b batchIndex chunk rest =>
      intro t' ht' hb
      obtain ⟨t, ht, -, hb'⟩ := k.bound b (own b rfl) t' ht' hb
      exact h t ht hb'
    | submitting b batchIndex chunk rest =>
      intro t' ht' hb
      obtain ⟨t, ht, hid, hb'⟩ := k.bound b (own b rfl) t' ht' hb
      exact hid ▸ h t ht hb'
    | recording b batchIndex chunk hash rest =>
      obtain ⟨tx, htx, hh, hb, hc⟩ := h
      obtain ⟨tx', htx', hash', -, he, batch, -⟩ := g tx htx
      exact ⟨tx', htx', hash'.trans hh, batch.trans hb, he.trans hc⟩
    | _ => trivial
  | readingRound order hash ticketIds => exact Fulfilled.grown g h
  | finalizing order hash ticketIds round => exact Fulfilled.grown g h
  | submitted order baseTxHash =>
    cases baseTxHash with
    | none => trivial
    | some hash =>
      obtain ⟨tx, htx, hh, ho⟩ := h
      obtain ⟨tx', htx', hash', orderId, -⟩ := g tx htx
      exact ⟨tx', htx', hash'.trans hh, orderId.trans ho⟩
  | _ => trivial

end Keeps

end LordsPot.Relay
