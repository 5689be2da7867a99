import LordsPot.Relay.Book

/-!
# What a process learns

After every call a process knows what the book says it knows: a read returns rows, a
receipt or an event belongs to the transaction it was asked for, and a chunk id that is
found fulfilled is that of a transaction with the chunk's tickets.
-/

namespace LordsPot.Relay

/-! ## What the calls tell -/

section Reads

variable {keccak256 : String → Bytes32} {s : State}

theorem mem_returned {db : Db} {q : Ticket → Bool} {tickets : List ChunkTicket}
    (h : returned db q tickets = true) {c : ChunkTicket} (hc : c ∈ tickets) :
    ∃ t ∈ db.tickets, q t = true ∧ select t = c := by
  obtain ⟨t, ht, he⟩ := List.mem_map.1 ((List.isPerm_iff.1 h).mem_iff.1 hc)
  exact ⟨t, (List.mem_filter.1 ht).1, (List.mem_filter.1 ht).2, he⟩

theorem rows_returned {db : Db} {q : Ticket → Bool} {tickets : List ChunkTicket}
    (h : returned db q tickets = true) : Rows db tickets := by
  intro c hc
  obtain ⟨t, ht, -, he⟩ := mem_returned h hc
  exact he ▸ List.mem_map_of_mem ht

/-- Stuck batches are read with rows, and their hash is that of a transaction with them. -/
theorem stuckOk_returned (book : Book keccak256 s) {hash : Bytes32} {stuck : List StuckBatch}
    (h : returnedStuck s.db hash stuck = true) (batch : StuckBatch) (hb : batch ∈ stuck) :
    Rows s.db batch.tickets ∧ StuckOk s.txs batch := by
  rw [returnedStuck, Bool.and_eq_true, List.all_eq_true] at h
  refine ⟨rows_returned (h.2 batch hb), fun txHash hh => ?_⟩
  obtain ⟨b, hbm, he⟩ := List.mem_map.1
    ((List.isPerm_iff.1 h.1).mem_iff.1 (List.mem_map_of_mem (f := fun b => (b.id, b.txHash)) hb))
  obtain ⟨hid, hhash⟩ := Prod.mk.inj he
  obtain ⟨tx, htx, hash', batchId⟩ :=
    book.batchHashes b (List.mem_filter.1 hbm).1 txHash (hhash.trans hh)
  refine ⟨tx, htx, hash', fun c hc => ?_⟩
  obtain ⟨t, ht, bound, rfl⟩ := mem_returned (h.2 batch hb) hc
  exact book.bound tx htx b.id batchId t ht (hid ▸ beq_iff_eq.1 bound)

theorem mintedIds_eq {txs : List BuyTx} {hash : TxHash} {ticketIds : List NftId}
    (h : mintedIds txs hash = some ticketIds) :
    ∃ tx ∈ txs, tx.hash = hash ∧ tx.ticketIds = some ticketIds := by
  obtain ⟨tx, htx, hi⟩ := Option.bind_eq_some_iff.1 h
  have found := List.find?_some htx
  exact ⟨tx, List.mem_of_find?_eq_some htx, beq_iff_eq.1 found, hi⟩

theorem fulfillment_eq {txs : List BuyTx} {orderId : Bytes32} {hash : TxHash}
    {ticketIds : List NftId} (h : fulfillment txs orderId hash = some ticketIds) :
    ∃ tx ∈ txs, tx.hash = hash ∧ tx.orderId = orderId ∧ tx.ticketIds = some ticketIds := by
  obtain ⟨tx, htx, hi⟩ := Option.bind_eq_some_iff.1 h
  have found := List.find?_some htx
  rw [Bool.and_eq_true, beq_iff_eq, beq_iff_eq] at found
  exact ⟨tx, List.mem_of_find?_eq_some htx, found.1, found.2, hi⟩

theorem Book.tx_unique (book : Book keccak256 s) {tx tx' : BuyTx} (h : tx ∈ s.txs) (h' : tx' ∈ s.txs)
    (same : tx.hash = tx'.hash) : tx = tx' :=
  List.inj_on_of_nodup_map book.txHashes h h' same

theorem Book.uuidLike (book : Book keccak256 s) {tickets : List ChunkTicket}
    (rows : Rows s.db tickets) : ∀ c ∈ tickets, UuidLike c :=
  fun c hc => book.uuids c (rows c hc)

/-- A fulfilled chunk id is that of a transaction with the chunk's tickets. -/
theorem Book.covers_of_orderId (book : Book keccak256 s) (injective : Function.Injective keccak256)
    {tx : BuyTx} (htx : tx ∈ s.txs) {tickets : List ChunkTicket} (rows : Rows s.db tickets)
    (h : tx.orderId = deriveChunkOrderId keccak256 tickets) : tx.Covers tickets := by
  rcases book.kinds tx htx with ⟨o, ho, he, -⟩ | he
  · obtain ⟨hashed, plain, nonempty⟩ := book.hashed o ho
    refine absurd (injective ?_) (chunkKey_ne (book.uuidLike rows) plain nonempty)
    rw [← hashed, ← he, h, deriveChunkOrderId]
  · have key := injective (he.symm.trans h)
    have perm := perm_of_chunkKey (book.uuidLike (book.txRows tx htx)) (book.uuidLike rows) key
    exact fun c hc => perm.mem_iff.2 (List.mem_map_of_mem hc)

/-- A fulfilled order hash is that of a transaction with all the order's tickets. -/
theorem Book.whole_of_orderId (book : Book keccak256 s) (injective : Function.Injective keccak256)
    {tx : BuyTx} (htx : tx ∈ s.txs) (known : tx.orderId ∈ s.db.relayOrders.map (·.hash)) {t : Ticket}
    (ht : t ∈ s.db.tickets) (own : t.orderHash = tx.orderId) : t.id ∈ tx.tickets.map (·.id) := by
  rcases book.kinds tx htx with ⟨o, -, he, whole⟩ | he
  · exact whole t ht (own.trans he)
  · obtain ⟨o, ho, hash⟩ := List.mem_map.1 known
    obtain ⟨hashed, plain, nonempty⟩ := book.hashed o ho
    refine absurd (injective ?_) (chunkKey_ne (book.uuidLike (book.txRows tx htx)) plain nonempty)
    rw [← hashed, hash, he, deriveChunkOrderId]

theorem orderRows_returned (book : Book keccak256 s) {hash : Bytes32} {o : RelayOrder}
    (ho : s.db.order? hash = some o) {tickets : List ChunkTicket}
    (h : returned s.db (ofOrder hash) tickets = true) (amountUsdc : Nat) :
    OrderRows s.db { hash := hash, amountUsdc := amountUsdc, tickets := tickets } := by
  refine ⟨?_, fun c hc t ht hid => ?_⟩
  · rw [show hash = o.hash from (Table.key_of_findUnique ho).symm]
    exact List.mem_map_of_mem (Table.mem_of_findUnique ho)
  · obtain ⟨row, hrow, own, rfl⟩ := mem_returned h hc
    obtain rfl := List.inj_on_of_nodup_map book.ticketIds ht hrow hid
    exact beq_iff_eq.1 own

end Reads

/-! ## The loops -/

section Loops

variable {db : Db} {txs : List BuyTx}

theorem inHand_resolveBatches (stuck : List StuckBatch) :
    (resolveBatches stuck).inHand = stuck.flatMap (·.tickets) := by
  cases stuck with
  | nil => rfl
  | cons batch rest =>
    rw [resolveBatches]
    split <;> rfl

theorem inHand_submitChunks (batchIndex : Nat) (rest : List (List ChunkTicket)) :
    (submitChunks batchIndex rest).inHand = rest.flatten := by
  cases rest <;> rfl

theorem inHand_next (loop : Loop) : loop.next.inHand = loop.inHand := by
  cases loop with
  | stuck rest => exact inHand_resolveBatches rest
  | fresh batchIndex rest => exact inHand_submitChunks (batchIndex + 1) rest

theorem owns_resolveBatches (order : OrderRead) (round : Nat) (stuck : List StuckBatch) :
    (Proc.relaying order round (resolveBatches stuck)).owns = none := by
  cases stuck with
  | nil => rfl
  | cons batch rest =>
    rw [resolveBatches]
    split <;> rfl

theorem owns_submitChunks (order : OrderRead) (round batchIndex : Nat)
    (rest : List (List ChunkTicket)) :
    (Proc.relaying order round (submitChunks batchIndex rest)).owns = none := by
  cases rest <;> rfl

theorem owns_next (order : OrderRead) (round : Nat) (loop : Loop) :
    (Proc.relaying order round loop.next).owns = none := by
  cases loop with
  | stuck rest => exact owns_resolveBatches order round rest
  | fresh batchIndex rest => exact owns_submitChunks order round (batchIndex + 1) rest

theorem phaseOk_resolveBatches {stuck : List StuckBatch} (h : ∀ batch ∈ stuck, StuckOk txs batch) :
    PhaseOk db txs (resolveBatches stuck) := by
  cases stuck with
  | nil => trivial
  | cons batch rest =>
    have others : ∀ b ∈ rest, StuckOk txs b := fun b hb => h b (List.mem_cons_of_mem _ hb)
    rw [resolveBatches]
    split
    · exact others
    · rename_i txHash hh
      exact ⟨h batch List.mem_cons_self txHash hh, others⟩

theorem phaseOk_submitChunks (batchIndex : Nat) (rest : List (List ChunkTicket)) :
    PhaseOk db txs (submitChunks batchIndex rest) := by
  cases rest <;> trivial

theorem phaseOk_next {b : Uuid} {tickets : List ChunkTicket} {loop : Loop}
    (h : LoopOk txs b tickets loop) : PhaseOk db txs loop.next := by
  cases loop with
  | stuck rest => exact phaseOk_resolveBatches h
  | fresh batchIndex rest => exact phaseOk_submitChunks (batchIndex + 1) rest

end Loops

/-! ## The calls -/

/-- What a process knows, holds and owns after a call. -/
structure After (s : State) (p : Proc) (s' : State) (p' : Proc) : Prop where
  known : ProcOk s'.db s'.txs p'
  inHand : Rows s.db p'.inHand
  owns : ∀ b, p'.owns = some b → s'.txs = s.txs ∧ b ∈ s'.db.relayBatches.map (·.id) ∧
    (p.owns = some b ∨ b ∉ s.db.relayBatches.map (·.id))

section Calls

variable {keccak256 : String → Bytes32} {s s' : State} {p p' : Proc}

/-- A process that owns no batch afterwards. -/
theorem After.idle (known : ProcOk s'.db s'.txs p') (inHand : Rows s.db p'.inHand)
    (none? : p'.owns = none) : After s p s' p' where
  known := known
  inHand := inHand
  owns b hb := by rw [none?] at hb; cases hb

theorem Rows.left {db : Db} {tickets more : List ChunkTicket} (h : Rows db (tickets ++ more)) :
    Rows db tickets := fun c hc => h c (List.mem_append_left _ hc)

theorem Rows.right {db : Db} {tickets more : List ChunkTicket} (h : Rows db (tickets ++ more)) :
    Rows db more := fun c hc => h c (List.mem_append_right _ hc)

theorem Rows.append {db : Db} {tickets more : List ChunkTicket} (h : Rows db tickets)
    (h' : Rows db more) : Rows db (tickets ++ more) := fun c hc =>
  (List.mem_append.1 hc).elim (h c) (h' c)

theorem phaseMove_after (book : Book keccak256 s) (injective : Function.Injective keccak256)
    {order : OrderRead} {round : Nat} {phase : Phase} {call : Call}
    (hp : .relaying order round phase ∈ s.procs)
    (move : PhaseMove keccak256 s order round phase call s' p') :
    After s (.relaying order round phase) s' p' := by
  have known : PhaseOk s.db s.txs phase := book.procs _ hp
  have rows : Rows s.db (order.tickets ++ phase.inHand) := book.inHand _ hp
  have own := book.owners _ hp
  cases move with
  | findStuck read =>
    have each := stuckOk_returned book read
    refine .idle (phaseOk_resolveBatches fun batch hb => (each batch hb).2) ?_
      (owns_resolveBatches ..)
    refine rows.left.append ?_
    rw [inHand_resolveBatches]
    intro c hc
    obtain ⟨batch, hb, hc⟩ := List.mem_flatMap.1 hc
    exact (each batch hb).1 c hc
  | timeout | reverted => exact .idle known.2 rows rfl
  | mined minted =>
    obtain ⟨tx, htx, hash, ids⟩ := mintedIds_eq minted
    obtain ⟨⟨own, hown, hash', covers⟩, loopOk⟩ := known
    obtain rfl := book.tx_unique htx hown (hash.trans hash'.symm)
    exact .idle ⟨⟨tx, htx, hash, ids, covers⟩, loopOk⟩ rows rfl
  | alreadyDone | refused | missing => exact .idle known rows rfl
  | recovered found =>
    obtain ⟨tx, htx, hash, orderId, ids⟩ := fulfillment_eq found
    have covers := book.covers_of_orderId injective htx rows.right.left orderId
    exact .idle ⟨⟨tx, htx, hash, ids, covers⟩, known⟩ rows rfl
  | confirm =>
    refine .idle (phaseOk_next known.2) ?_ (owns_next ..)
    exact rows.left.append (by rw [inHand_next]; exact rows.right.right)
  | release =>
    rename_i b tickets reason loop
    cases loop with
    | stuck rest =>
      refine .idle (phaseOk_resolveBatches known) ?_ (owns_resolveBatches ..)
      exact rows.left.append (by rw [inHand_resolveBatches]; exact rows.right.right)
    | fresh batchIndex rest => exact .idle trivial rows.left rfl
  | noPending | collect => exact .idle trivial rows rfl
  | findPending read => exact .idle trivial (rows.left.append (rows_returned read)) rfl
  | count =>
    refine .idle (phaseOk_submitChunks ..) (rows.left.append ?_) (owns_submitChunks ..)
    rw [inHand_submitChunks]
    intro c hc
    obtain ⟨chunk, hchunk, hc⟩ := List.mem_flatten.1 hc
    exact rows.right c (mem_of_chunks hchunk hc)
  | create fresh =>
    rename_i b batchIndex chunk rest
    have new : b ∉ s.db.relayBatches.map (·.id) := by
      rintro hb
      obtain ⟨r, hr, he⟩ := List.mem_map.1 hb
      simpa [he] using List.all_eq_true.1 fresh r hr
    refine ⟨fun t ht hb => new (book.boundBatches t ht b hb), rows, fun b' hb' => ?_⟩
    cases hb'
    exact ⟨rfl, by simp [createBatch], .inr new⟩
  | bind =>
    rename_i b batchIndex chunk rest
    refine ⟨fun t' ht' hb => ?_, rows, fun b' hb' => ?_⟩
    · obtain ⟨t, ht, rfl⟩ := Table.mem_updateMany.1 ht'
      split at hb
      · rename_i hit
        rw [if_pos hit]
        exact List.contains_iff_mem.1 hit
      · exact absurd hb (known t ht)
    · cases hb'
      exact ⟨rfl, (own b rfl).1, .inl rfl⟩
  | submit fresh =>
    refine .idle ?_ rows rfl
    exact ⟨_, List.mem_append_right _ List.mem_cons_self, rfl, rfl, rfl⟩
  | record =>
    obtain ⟨tx, htx, hash, batch, rfl⟩ := known
    exact .idle ⟨⟨tx, htx, hash, fun c hc => List.mem_map_of_mem hc⟩, tx, htx, batch, rfl⟩ rows rfl
  | succeed => exact .idle trivial (fun c hc => absurd hc List.not_mem_nil) rfl

theorem rows_thrown {db : Db} (h : Rows db p.inHand) : Rows db p.thrown.inHand := by
  unfold Proc.thrown
  split
  · exact h.left
  · nofun

theorem After.thrown (h : Rows s.db p.inHand) : After s p s' p.thrown := by
  refine .idle ?_ (rows_thrown h) ?_
  · unfold Proc.thrown
    split <;> trivial
  · unfold Proc.thrown
    split <;> rfl

theorem inHand_leaving (leaving : p.leaving = true) : p.inHand = [] := by
  cases p <;> first | rfl | cases leaving

theorem owns_leaving (leaving : p.leaving = true) : p.owns = none := by
  cases p <;> first | rfl | cases leaving

theorem After.leaving (leaving : p'.leaving = true) : After s p s p' := by
  refine .idle ?_ ?_ (owns_leaving leaving)
  · cases p' <;> trivial
  · rw [inHand_leaving leaving]
    exact fun c hc => absurd hc List.not_mem_nil

theorem procStep_after (book : Book keccak256 s) (injective : Function.Injective keccak256)
    {call : Call} (hp : p ∈ s.procs) (h : procStep keccak256 s p call = some (s', p')) :
    After s p s' p' := by
  have known := book.procs _ hp
  have rows := book.inHand _ hp
  cases procMove h with
  | leave leaving => exact .leaving leaving
  | throw => exact .thrown rows
  | phase move => exact phaseMove_after book injective hp move
  | lastWrite | lockTaken => exact .idle trivial (fun c hc => absurd hc List.not_mem_nil) rfl
  | read found read => exact .idle trivial (rows_returned read) rfl
  | gate | fund | alreadyDone | reverted | confirmerAlreadyDone => exact .idle trivial rows rfl
  | lock => exact .idle trivial (rows.append fun c hc => absurd hc List.not_mem_nil) rfl
  | recovered found | confirmerRecovered found => exact .idle (fulfillment_eq found) rows rfl
  | readRound => exact .idle known rows rfl
  | confirmerRead found read =>
    rename_i hash tickets o
    refine .idle ?_ (rows_returned read) rfl
    cases hb : o.baseTxHash with
    | none => trivial
    | some txHash =>
      obtain ⟨tx, htx, hh, orderId⟩ := book.orderTxs o (Table.mem_of_findUnique found) txHash hb
      exact ⟨tx, htx, hh, orderId.trans (Table.key_of_findUnique found)⟩
  | mined minted =>
    obtain ⟨tx, htx, hash, ids⟩ := mintedIds_eq minted
    obtain ⟨own, hown, hash', orderId⟩ := known
    obtain rfl := book.tx_unique htx hown (hash.trans hash'.symm)
    exact .idle ⟨tx, htx, hash, orderId, ids⟩ rows rfl

theorem order_released {order order' : OrderRead} {round : Nat} (loop : Loop)
    (ho : (loop.released order' round).order? = some order) : order' = order := by
  cases loop <;> exact Option.some.inj ho

/-- A job works on the order it has read. -/
theorem phaseMove_order {order order' : OrderRead} {round : Nat} {phase : Phase} {call : Call}
    (move : PhaseMove keccak256 s order' round phase call s' p') (ho : p'.order? = some order) :
    order' = order := by
  cases move with
  | release => exact order_released _ ho
  | succeed => cases ho
  | _ => exact Option.some.inj ho

theorem thrown_order {order : OrderRead} (ho : p.thrown.order? = some order) :
    p.order? = some order := by
  unfold Proc.thrown at ho
  split at ho
  · exact ho
  · cases ho

theorem order_leaving (leaving : p.leaving = true) : p.order? = none := by
  cases p <;> first | rfl | cases leaving

theorem procStep_order (book : Book keccak256 s) {call : Call} (hp : p ∈ s.procs)
    (h : procStep keccak256 s p call = some (s', p')) {order : OrderRead}
    (ho : p'.order? = some order) : OrderRows s.db order := by
  have same : p.order? = some order → OrderRows s.db order := book.orders p hp order
  cases procMove h with
  | leave leaving =>
    rw [order_leaving leaving] at ho
    cases ho
  | throw => exact same (thrown_order ho)
  | phase move => exact same (congrArg some (phaseMove_order move ho))
  | lastWrite | lockTaken => cases ho
  | read found read | confirmerRead found read =>
    cases ho
    exact orderRows_returned book found read _
  | _ => exact same ho

end Calls

end LordsPot.Relay
