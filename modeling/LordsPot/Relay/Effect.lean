import LordsPot.Relay.Moves

/-!
# What a call can do

Every call of a process has one of a few effects, which `Effect` lists by table: it stamps
NFT ids, binds or releases tickets, turns an order SUCCESS, creates a batch or records its
hash, or broadcasts a transaction. Which rows it can touch is read off the process.
-/

namespace LordsPot.Relay

/-- The NFT ids a call stamps, each with the ticket. -/
def Proc.stamps (db : Db) : Proc → Call → List (ChunkTicket × NftId)
  | .relaying _ _ (.confirming _ tickets _ ticketIds _), .write => tickets.zip ticketIds
  | .finalizing order _ ticketIds _, .write =>
      if finalizable db order.hash then order.tickets.zip ticketIds else []
  | _, _ => []

/-- The batch a process is about to bind a chunk to. -/
def Proc.binds : Proc → Option (Uuid × List ChunkTicket)
  | .relaying _ _ (.binding b _ chunk _) => some (b, chunk)
  | _ => none

/-- The hash a process is about to record on a batch. -/
def Proc.records : Proc → Option (Uuid × TxHash)
  | .relaying _ _ (.recording b _ _ txHash _) => some (b, txHash)
  | _ => none

/-- The chunk a process is about to broadcast for a batch. -/
def Proc.submits : Proc → Option (Uuid × List ChunkTicket)
  | .relaying _ _ (.submitting b _ chunk _) => some (b, chunk)
  | _ => none

/-- The order a call turns SUCCESS, with the epoch it stamps. -/
def Proc.succeeds (db : Db) : Proc → Call → Option (Bytes32 × Option Nat)
  | .relaying order round (.succeeding _), .write => some (order.hash, some round)
  | .finalizing order _ _ round, .write =>
      if finalizable db order.hash then some (order.hash, round) else none
  | _, _ => none

/-- The order whose status a call overwrites whatever it is, with the new status. -/
def Proc.unguarded : Proc → Call → Option (Bytes32 × OrderStatus)
  | .deferring hash, .write => some (hash, .DEFERRED)
  | .underfunded hash _ _, .write => some (hash, .RETRY_PENDING)
  | .relaying order _ (.succeeding _), .write => some (order.hash, .SUCCESS)
  | .failing hash isPermanent _, .write =>
      some (hash, if isPermanent then .FAILED_PERMANENT else .RETRY_PENDING)
  | .resetting hash, .write => some (hash, .RETRY_PENDING)
  | _, _ => none

/-- The order a call gives up for good, with the statuses it may be in. -/
def Proc.fails : Proc → Call → Option (Bytes32 × List OrderStatus)
  | .failing hash true _, .write => some (hash, ANY)
  | .rejecting hash _, .write => some (hash, [.BASE_SUBMITTED])
  | _, _ => none

/-- What a call of `p` makes of a ticket row. -/
structure RowRule (db : Db) (p : Proc) (call : Call) (t t' : Ticket) : Prop where
  columns : select t' = select t
  order : t'.orderHash = t.orderHash
  results : t'.results = t.results
  stamp : t'.megapotNftId = t.megapotNftId ∨
    ∃ pair ∈ p.stamps db call, pair.1.id = t.id ∧ t'.megapotNftId = some pair.2
  bind : ∀ b, t'.relayBatchId = some b → t.relayBatchId = some b ∨
    ∃ chunk, p.binds = some (b, chunk) ∧ t.id ∈ chunk.map (·.id)

/-- What a call of `p` makes of an order row. -/
structure OrderRule (db : Db) (p : Proc) (call : Call) (o o' : RelayOrder) : Prop where
  hash : o'.hash = o.hash
  signature : o'.signature = o.signature
  buyer : o'.buyer = o.buyer
  baseTxHash : o'.baseTxHash = o.baseTxHash ∨
    ∃ order txHash ticketIds round, p = .finalizing order txHash ticketIds round ∧
      o.hash = order.hash ∧ o'.baseTxHash = some txHash
  success : o'.status = .SUCCESS → (o.status = .SUCCESS ∧ o'.fulfillEpoch = o.fulfillEpoch) ∨
    p.succeeds db call = some (o.hash, o'.fulfillEpoch)
  epoch : o'.fulfillEpoch = o.fulfillEpoch ∨ p.succeeds db call = some (o.hash, o'.fulfillEpoch)
  finished : o.status.finished = true →
    (o'.status = o.status ∧ o'.fulfillEpoch = o.fulfillEpoch) ∨
      p.unguarded call = some (o.hash, o'.status)
  failed : o'.status = .FAILED_PERMANENT → o.status = .FAILED_PERMANENT ∨
    ∃ statuses, p.fails call = some (o.hash, statuses) ∧ o.status ∈ statuses

/-- What a `call` of `p` does. -/
structure Effect (keccak256 : String → Bytes32) (s : State) (p : Proc) (call : Call) (s' : State) :
    Prop where
  columns : s'.db.tickets.map select = s.db.tickets.map select
  rows : ∀ t' ∈ s'.db.tickets, ∃ t ∈ s.db.tickets, RowRule s.db p call t t'
  hashes : s'.db.relayOrders.map (·.hash) = s.db.relayOrders.map (·.hash)
  orders : ∀ o' ∈ s'.db.relayOrders, ∃ o ∈ s.db.relayOrders, OrderRule s.db p call o o'
  batchIds : ∀ b ∈ s.db.relayBatches.map (·.id), b ∈ s'.db.relayBatches.map (·.id)
  batches : ∀ b' ∈ s'.db.relayBatches, ∀ txHash, b'.txHash = some txHash →
    (∃ b ∈ s.db.relayBatches, b.id = b'.id ∧ b.txHash = some txHash) ∨
      p.records = some (b'.id, txHash)
  txs : s'.txs = s.txs ∨ ∃ b chunk txHash, call = .submit txHash ∧ p.submits = some (b, chunk) ∧
    (∀ tx ∈ s.txs, tx.hash ≠ txHash) ∧
    s'.txs = s.txs ++ [{ hash := txHash, orderId := deriveChunkOrderId keccak256 chunk,
                         tickets := chunk, batchId := some b }]
  megapotEpochs : s'.db.megapotEpochs = s.db.megapotEpochs
  payoutClaims : s'.db.payoutClaims = s.db.payoutClaims
  drawing : s'.drawing = s.drawing
  procs : s'.procs = s.procs

variable {keccak256 : String → Bytes32} {s : State} {p : Proc} {call : Call}

theorem RowRule.refl {db : Db} (t : Ticket) : RowRule db p call t t := ⟨rfl, rfl, rfl, .inl rfl, fun _ => .inl⟩

theorem RowRule.winStatus {db : Db} {t t' : Ticket} (row : RowRule db p call t t') :
    t'.winStatus = t.winStatus := congrArg (·.1) row.results

theorem OrderRule.refl {db : Db} (o : RelayOrder) : OrderRule db p call o o :=
  ⟨rfl, rfl, rfl, .inl rfl, fun h => .inl ⟨h, rfl⟩, .inl rfl, fun _ => .inl ⟨rfl, rfl⟩, .inl⟩

/-! ## Rows -/

/-- The same row, but for the columns a stamp writes. -/
def Stamped (pairs : List (ChunkTicket × NftId)) (t t' : Ticket) : Prop :=
  select t' = select t ∧ t'.orderHash = t.orderHash ∧ t'.results = t.results ∧
    t'.relayBatchId = t.relayBatchId ∧
    (t'.megapotNftId = t.megapotNftId ∨
      ∃ pair ∈ pairs, pair.1.id = t.id ∧ t'.megapotNftId = some pair.2)

theorem stamp_cons (h : Option TxHash) (pair : ChunkTicket × NftId)
    (pairs : List (ChunkTicket × NftId)) (rows : List Ticket) :
    stamp h (pair :: pairs) rows = stamp h pairs (stamp h [pair] rows) := rfl

theorem map_select_stamp (h : Option TxHash) (pairs : List (ChunkTicket × NftId))
    (rows : List Ticket) : (stamp h pairs rows).map select = rows.map select := by
  induction pairs generalizing rows with
  | nil => rfl
  | cons pair pairs ih =>
    rw [stamp_cons, ih]
    exact Table.map_updateMany select fun _ _ _ => rfl

theorem mem_stamp {h : Option TxHash} {pairs : List (ChunkTicket × NftId)} {rows : List Ticket}
    {t' : Ticket} (ht' : t' ∈ stamp h pairs rows) : ∃ t ∈ rows, Stamped pairs t t' := by
  induction pairs generalizing rows with
  | nil => exact ⟨t', ht', rfl, rfl, rfl, rfl, .inl rfl⟩
  | cons pair pairs ih =>
    rw [stamp_cons] at ht'
    obtain ⟨u, hu, columns, order, status, batch, later⟩ := ih ht'
    obtain ⟨t, ht, rfl⟩ := Table.mem_updateMany.1 hu
    refine ⟨t, ht, columns.trans (by split <;> rfl), order.trans (by split <;> rfl),
      status.trans (by split <;> rfl), batch.trans (by split <;> rfl), ?_⟩
    split at later
    · rename_i hit
      rcases later with same | ⟨q, hq, hid, hn⟩
      · exact .inr ⟨pair, List.mem_cons_self, (beq_iff_eq.1 hit).symm, same⟩
      · exact .inr ⟨q, List.mem_cons_of_mem _ hq, hid, hn⟩
    · rcases later with same | ⟨q, hq, hid, hn⟩
      · exact .inl same
      · exact .inr ⟨q, List.mem_cons_of_mem _ hq, hid, hn⟩

/-! ## The effects -/

namespace Effect

theorem quiet : Effect keccak256 s p call s where
  columns := rfl
  rows t ht := ⟨t, ht, .refl t⟩
  hashes := rfl
  orders o ho := ⟨o, ho, .refl o⟩
  batchIds _ := id
  batches b hb _ hh := .inl ⟨b, hb, rfl, hh⟩
  txs := .inl rfl
  megapotEpochs := rfl
  payoutClaims := rfl
  drawing := rfl
  procs := rfl

/-- A change of the orders. -/
theorem updateOrders {q : RelayOrder → Bool} {f : RelayOrder → RelayOrder}
    (rule : ∀ o, q o = true → OrderRule s.db p call o (f o)) : Effect keccak256 s p call { s with
      db := { s.db with relayOrders := Table.updateMany q f s.db.relayOrders } } where
  __ := (quiet : Effect keccak256 s p call s)
  hashes := Table.map_updateMany _ fun o _ hq => (rule o hq).hash
  orders o' ho' := by
    obtain ⟨o, ho, rfl⟩ := Table.mem_updateMany.1 ho'
    refine ⟨o, ho, ?_⟩
    split
    · rename_i hq
      exact rule o hq
    · exact .refl o

/-- A change of an order's status and texts, not to SUCCESS: one of an order that is not finished,
or one without a guard, and to FAILED_PERMANENT only from the statuses `Proc.fails` names. -/
theorem updateOrder {hash : Bytes32} {statuses : List OrderStatus} {f : RelayOrder → RelayOrder}
    (keep : ∀ o, (f o).hash = o.hash ∧ (f o).signature = o.signature ∧ (f o).buyer = o.buyer ∧
      (f o).baseTxHash = o.baseTxHash ∧ (f o).fulfillEpoch = o.fulfillEpoch)
    (open? : ∀ o, (f o).status ≠ .SUCCESS)
    (overwrites : (∀ status ∈ statuses, status.finished = false) ∨
      ∀ o, p.unguarded call = some (hash, (f o).status))
    (fails : ∀ o, (f o).status = .FAILED_PERMANENT → p.fails call = some (hash, statuses)) :
    Effect keccak256 s p call { s with db := Relay.updateOrder s.db hash statuses f } :=
  updateOrders fun o ho => by
    rw [Bool.and_eq_true, beq_iff_eq, List.contains_iff_mem] at ho
    obtain ⟨hash', signature, buyer, baseTxHash, epoch⟩ := keep o
    refine ⟨hash', signature, buyer, .inl baseTxHash, fun h => absurd h (open? o), .inl epoch,
      fun done => ?_, fun failed => .inr ⟨statuses, ho.1 ▸ fails o failed, ho.2⟩⟩
    rcases overwrites with guarded | overwrites
    · rw [guarded _ ho.2] at done
      cases done
    · exact .inr (ho.1 ▸ overwrites o)

/-- A change of an order to a status in which it is not finished. -/
theorem reopenOrder {hash : Bytes32} {statuses : List OrderStatus} {f : RelayOrder → RelayOrder}
    (keep : ∀ o, (f o).hash = o.hash ∧ (f o).signature = o.signature ∧ (f o).buyer = o.buyer ∧
      (f o).baseTxHash = o.baseTxHash ∧ (f o).fulfillEpoch = o.fulfillEpoch)
    (reopens : ∀ o, (f o).status.finished = false)
    (overwrites : (∀ status ∈ statuses, status.finished = false) ∨
      ∀ o, p.unguarded call = some (hash, (f o).status)) :
    Effect keccak256 s p call { s with db := Relay.updateOrder s.db hash statuses f } := by
  refine .updateOrder keep (fun o won => ?_) overwrites fun o failed => ?_
  · have := reopens o
    rw [won] at this
    cases this
  · have := reopens o
    rw [failed] at this
    cases this

/-- A change of the tickets' batch. -/
theorem updateTickets {q : Ticket → Bool} {batch : Option Uuid}
    (bind : ∀ b, batch = some b → ∀ t, q t = true →
      ∃ chunk, p.binds = some (b, chunk) ∧ t.id ∈ chunk.map (·.id)) :
    Effect keccak256 s p call { s with
      db := { s.db with
        tickets := Table.updateMany q (fun t => { t with relayBatchId := batch }) s.db.tickets } } where
  __ := (quiet : Effect keccak256 s p call s)
  columns := Table.map_updateMany select fun _ _ _ => rfl
  rows t' ht' := by
    obtain ⟨t, ht, rfl⟩ := Table.mem_updateMany.1 ht'
    refine ⟨t, ht, ?_⟩
    split
    · rename_i hq
      exact ⟨rfl, rfl, rfl, .inl rfl, fun b hb => .inr (bind b hb t hq)⟩
    · exact .refl t

/-- A change of the batches. -/
theorem updateBatches {q : RelayBatch → Bool} {f : RelayBatch → RelayBatch}
    (keep : ∀ b, (f b).id = b.id)
    (record : ∀ b, q b = true → ∀ txHash, (f b).txHash = some txHash →
      b.txHash = some txHash ∨ p.records = some (b.id, txHash)) :
    Effect keccak256 s p call { s with
      db := { s.db with relayBatches := Table.updateMany q f s.db.relayBatches } } where
  __ := (quiet : Effect keccak256 s p call s)
  batchIds b hb := by
    rw [show (Table.updateMany q f s.db.relayBatches).map (·.id) = s.db.relayBatches.map (·.id) from
      Table.map_updateMany _ fun b _ _ => keep b]
    exact hb
  batches b' hb' txHash hh := by
    obtain ⟨b, hb, rfl⟩ := Table.mem_updateMany.1 hb'
    split at hh
    · rename_i hq
      rw [if_pos hq, keep]
      exact (record b hq txHash hh).imp_left fun h => ⟨b, hb, rfl, h⟩
    · rename_i hq
      rw [if_neg hq]
      exact .inl ⟨b, hb, rfl, hh⟩

theorem createBatch (b : Uuid) (orderHash : Bytes32) (batchIndex : Nat) :
    Effect keccak256 s p call { s with db := Relay.createBatch s.db b orderHash batchIndex } where
  __ := (quiet : Effect keccak256 s p call s)
  batchIds x hx := by
    rw [Relay.createBatch, List.map_append]
    exact List.mem_append_left _ hx
  batches b' hb' txHash hh := by
    rcases List.mem_append.1 hb' with old | new
    · exact .inl ⟨b', old, rfl, hh⟩
    · cases List.mem_singleton.1 new
      cases hh

theorem finalizeChunkSuccess {b : Uuid} {tickets : List ChunkTicket} {txHash : TxHash}
    {ticketIds : List NftId} (stamps : p.stamps s.db call = tickets.zip ticketIds) :
    Effect keccak256 s p call
      { s with db := Relay.finalizeChunkSuccess s.db b tickets txHash ticketIds } where
  __ := updateBatches (fun _ => rfl) (fun _ _ _ => .inl) (q := (·.id == b))
    (f := fun b => { b with status := .CONFIRMED })
  columns := map_select_stamp ..
  rows t' ht' := by
    obtain ⟨t, ht, columns, order, status, batch, stamp⟩ := mem_stamp ht'
    exact ⟨t, ht, columns, order, status, stamps ▸ stamp, fun b hb => .inl (batch ▸ hb)⟩

theorem releaseChunk (b : Uuid) (tickets : List ChunkTicket) (reason : String) :
    Effect keccak256 s p call { s with db := Relay.releaseChunk s.db b tickets reason } :=
  have unbind : Effect keccak256 s p call { s with
      db := { s.db with
        tickets := Table.updateMany (fun t => (tickets.map (·.id)).contains t.id)
          (fun t => { t with relayBatchId := none }) s.db.tickets } } := updateTickets nofun
  { updateBatches (fun _ => rfl) (fun _ _ _ => .inl) (q := (·.id == b))
      (f := fun b => { b with status := .FAILED, error := some (slice2000 reason) }) with
    columns := unbind.columns
    rows := unbind.rows }

theorem succeedOrder {order : OrderRead} {round : Nat} {ticketIds : List NftId}
    (hp : p.succeeds s.db call = some (order.hash, some round))
    (overwrites : p.unguarded call = some (order.hash, .SUCCESS)) :
    Effect keccak256 s p call { s with db := Relay.succeedOrder s.db order.hash round ticketIds } :=
  updateOrders fun o ho => by
    rw [Bool.and_eq_true, beq_iff_eq] at ho
    have stamped := ho.1 ▸ hp
    exact ⟨rfl, rfl, rfl, .inl rfl, fun _ => .inr stamped, .inr stamped,
      fun _ => .inr (ho.1 ▸ overwrites), fun failed => by cases failed⟩

theorem finalizeOrderSuccess {order : OrderRead} {txHash : TxHash} {ticketIds : List NftId}
    {round : Option Nat} (hp : p = .finalizing order txHash ticketIds round) :
    Effect keccak256 s p .write { s with
      db := Relay.finalizeOrderSuccess s.db order.hash order.tickets txHash ticketIds round } := by
  rw [Relay.finalizeOrderSuccess]
  split
  · rename_i open?
    refine { updateOrders (q := fun o => o.hash == order.hash && FINALIZABLE.contains o.status)
        (f := fun o => { o with status := .SUCCESS, baseTxHash := some txHash, fulfillEpoch := round,
                                megapotTicketIds := ticketIds, lastError := none }) ?_ with
      columns := map_select_stamp ..
      rows := ?_ }
    · intro o ho
      rw [Bool.and_eq_true, beq_iff_eq, List.contains_iff_mem] at ho
      have stamped : p.succeeds s.db .write = some (o.hash, round) := by
        rw [hp, ho.1, Proc.succeeds, if_pos open?]
      refine ⟨rfl, rfl, rfl, .inr ⟨order, txHash, ticketIds, round, hp, ho.1, rfl⟩,
        fun _ => .inr stamped, .inr stamped, fun done => ?_,
        fun failed => by cases failed⟩
      have guarded : ∀ status ∈ FINALIZABLE, status.finished = false := by decide
      rw [guarded _ ho.2] at done
      cases done
    · intro t' ht'
      obtain ⟨t, ht, columns, order, status, batch, stamp⟩ := mem_stamp ht'
      exact ⟨t, ht, columns, order, status, by rw [hp, Proc.stamps, if_pos open?]; exact stamp,
        fun b hb => .inl (batch ▸ hb)⟩
  · exact quiet

theorem submit {b : Uuid} {chunk : List ChunkTicket} {txHash : TxHash}
    (hp : p.submits = some (b, chunk)) (fresh : s.txs.all (·.hash != txHash) = true) :
    Effect keccak256 s p (.submit txHash) { s with
      txs := s.txs ++ [{ hash := txHash, orderId := deriveChunkOrderId keccak256 chunk,
                         tickets := chunk, batchId := some b }] } where
  __ := (quiet : Effect keccak256 s p (.submit txHash) s)
  txs := .inr ⟨b, chunk, txHash, rfl, hp, by simpa using fresh, rfl⟩

end Effect

theorem phaseMove_effect {order : OrderRead} {round : Nat} {phase : Phase} {s' : State} {p' : Proc}
    (move : PhaseMove keccak256 s order round phase call s' p') :
    Effect keccak256 s (.relaying order round phase) call s' := by
  cases move with
  | confirm => exact .finalizeChunkSuccess rfl
  | release => exact .releaseChunk ..
  | create => exact .createBatch ..
  | bind =>
    refine .updateTickets fun b hb t ht => ?_
    cases hb
    exact ⟨_, rfl, List.contains_iff_mem.1 ht⟩
  | submit fresh => exact .submit rfl fresh
  | record =>
    refine .updateBatches (fun _ => rfl) fun r hr h hh => ?_
    cases hh
    rw [beq_iff_eq] at hr
    exact .inr (hr ▸ rfl)
  | succeed => exact .succeedOrder rfl rfl
  | _ => exact .quiet

theorem lastWrite_effect {db : Db} (write : LastWrite s.db p db) :
    Effect keccak256 s p .write { s with db := db } := by
  cases write with
  | defer => exact .reopenOrder (fun _ => ⟨rfl, rfl, rfl, rfl, rfl⟩) (fun _ => rfl) (.inr fun _ => rfl)
  | underfund => exact .reopenOrder (fun _ => ⟨rfl, rfl, rfl, rfl, rfl⟩) (fun _ => rfl) (.inr fun _ => rfl)
  | finalize => exact .finalizeOrderSuccess rfl
  | strand => exact .reopenOrder (fun _ => ⟨rfl, rfl, rfl, rfl, rfl⟩) (fun _ => rfl) (.inl (by decide))
  | pause => exact .reopenOrder (fun _ => ⟨rfl, rfl, rfl, rfl, rfl⟩) (fun _ => rfl) (.inl (by decide))
  | fail =>
    rename_i hash isPermanent reason
    cases isPermanent with
    | false => exact .reopenOrder (fun _ => ⟨rfl, rfl, rfl, rfl, rfl⟩) (fun _ => rfl) (.inr fun _ => rfl)
    | true =>
      exact .updateOrder (fun _ => ⟨rfl, rfl, rfl, rfl, rfl⟩) (fun _ won => by cases won)
        (.inr fun _ => rfl) fun _ _ => rfl
  | bounce => exact .reopenOrder (fun _ => ⟨rfl, rfl, rfl, rfl, rfl⟩) (fun _ => rfl) (.inl (by decide))
  | reject =>
    exact .updateOrder (fun _ => ⟨rfl, rfl, rfl, rfl, rfl⟩) (fun _ won => by cases won)
      (.inl (by decide)) fun _ _ => rfl
  | reset => exact .reopenOrder (fun _ => ⟨rfl, rfl, rfl, rfl, rfl⟩) (fun _ => rfl) (.inr fun _ => rfl)

/-- **The effect rule**: a call of a process does what the process was about to do. -/
theorem procStep_effect {s' : State} {p' : Proc}
    (h : procStep keccak256 s p call = some (s', p')) : Effect keccak256 s p call s' := by
  cases procMove h with
  | phase move => exact phaseMove_effect move
  | lastWrite write => exact lastWrite_effect write
  | lock | lockTaken =>
    exact .reopenOrder (fun _ => ⟨rfl, rfl, rfl, rfl, rfl⟩) (fun _ => rfl) (.inl (by decide))
  | _ => exact .quiet

/-- The database changes only by the calls of processes and by the requeueing. -/
theorem step_db {a : Action} {s' : State} (hs : step keccak256 s a = some s') :
    s'.db = s.db ∨ s'.db = requeueDeferred s.db ∨
      ∃ i call lost p s₁, a = .call i call lost ∧ s.procs[i]? = some p ∧
        Effect keccak256 s p call s₁ ∧ s'.db = s₁.db := by
  cases stepMove hs with
  | requeue => exact .inr (.inl rfl)
  | call here move => exact .inr (.inr ⟨_, _, _, _, _, rfl, here, procStep_effect move, rfl⟩)
  | _ => exact .inl rfl

/-- No step adds, drops or renames an order. -/
theorem step_hashes {a : Action} (hs : step keccak256 s a = some s') :
    s'.db.relayOrders.map (·.hash) = s.db.relayOrders.map (·.hash) := by
  rcases step_db hs with same | requeued | ⟨_, _, _, _, _, -, -, effect, eq⟩
  · rw [same]
  · rw [requeued, requeueDeferred]
    exact Table.map_updateMany _ fun _ _ _ => rfl
  · rw [eq]
    exact effect.hashes

/-- A ticket after a step has the order and the results it had. -/
theorem step_ticket {a : Action} {s' : State} (hs : step keccak256 s a = some s') {t' : Ticket}
    (ht' : t' ∈ s'.db.tickets) :
    ∃ t ∈ s.db.tickets, t'.orderHash = t.orderHash ∧ t'.results = t.results := by
  rcases step_db hs with same | requeued | ⟨_, _, _, _, _, -, -, effect, eq⟩
  · exact ⟨t', same ▸ ht', rfl, rfl⟩
  · rw [requeued] at ht'
    exact ⟨t', ht', rfl, rfl⟩
  · obtain ⟨t, ht, row⟩ := effect.rows t' (eq ▸ ht')
    exact ⟨t, ht, row.order, row.results⟩

/-- An order after a step has the epoch it had, or a call turns it SUCCESS with its epoch. -/
theorem step_order {a : Action} {s' : State} (hs : step keccak256 s a = some s')
    (unique : (s.db.relayOrders.map (·.hash)).Nodup) {hash : Bytes32} {o' : RelayOrder}
    (found : s'.db.order? hash = some o') : ∃ o, s.db.order? hash = some o ∧
      (o'.fulfillEpoch = o.fulfillEpoch ∨ ∃ i call lost p, a = .call i call lost ∧
        s.procs[i]? = some p ∧ p.succeeds s.db call = some (hash, o'.fulfillEpoch)) := by
  have own := Table.key_of_findUnique found
  have mem := Table.mem_of_findUnique found
  have lookup : ∀ o ∈ s.db.relayOrders, o.hash = hash → s.db.order? hash = some o := by
    rintro o ho rfl
    exact Table.findUnique_of_mem unique ho
  rcases step_db hs with same | requeued | ⟨i, call, lost, p, s₁, rfl, hi, effect, eq⟩
  · exact ⟨o', lookup o' (same ▸ mem) own, .inl rfl⟩
  · rw [requeued] at mem
    obtain ⟨o, ho, row⟩ := Table.mem_updateMany.1 mem
    refine ⟨o, lookup o ho ?_, .inl ?_⟩
    · rw [← own, ← row]
      split <;> rfl
    · rw [← row]
      split <;> rfl
  · obtain ⟨o, ho, rule⟩ := effect.orders o' (eq ▸ mem)
    have same : o.hash = hash := rule.hash.symm.trans own
    refine ⟨o, lookup o ho same, rule.epoch.imp_right fun now => ?_⟩
    rw [same] at now
    exact ⟨i, call, lost, p, rfl, hi, now⟩

/-- The tickets of an epoch after a step: they were of that epoch, or a call turns their order
SUCCESS with it. -/
theorem step_ofEpoch {a : Action} {s' : State} (hs : step keccak256 s a = some s') {megapotId : Nat}
    {t' : Ticket} (ht' : t' ∈ s'.db.tickets) (of : s'.db.ofEpoch megapotId t' = true) :
    ∃ t ∈ s.db.tickets, t'.id = t.id ∧ t'.results = t.results ∧
      (s.db.ofEpoch megapotId t = true ∨ ∃ i call lost p, a = .call i call lost ∧
        s.procs[i]? = some p ∧ p.succeeds s.db call = some (t.orderHash, some megapotId)) := by
  obtain ⟨o', ho', hash, epoch, success⟩ := Db.ofEpoch_iff.1 of
  rcases step_db hs with same | requeued | ⟨i, call, lost, p, s₁, rfl, hi, effect, eq⟩
  · exact ⟨t', same ▸ ht', rfl, rfl, .inl (same ▸ of)⟩
  · rw [requeued] at ht' ho'
    obtain ⟨o, ho, rfl⟩ := Table.mem_updateMany.1 ho'
    split at success
    · cases success
    · rename_i other
      rw [if_neg other] at hash epoch
      exact ⟨t', ht', rfl, rfl, .inl (Db.ofEpoch_iff.2 ⟨o, ho, hash, epoch, success⟩)⟩
  · rw [eq] at ht' ho'
    obtain ⟨t, ht, row⟩ := effect.rows t' ht'
    obtain ⟨o, ho, rule⟩ := effect.orders o' ho'
    have own : o.hash = t.orderHash := rule.hash ▸ hash.trans row.order
    refine ⟨t, ht, congrArg (·.id) row.columns, row.results, ?_⟩
    rcases rule.success success with ⟨old, same⟩ | now
    · exact .inl (Db.ofEpoch_iff.2 ⟨o, ho, own, same ▸ epoch, old⟩)
    · rw [own, epoch] at now
      exact .inr ⟨i, call, lost, p, rfl, hi, now⟩

end LordsPot.Relay
