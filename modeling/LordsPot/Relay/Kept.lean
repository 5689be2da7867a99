import LordsPot.Relay.Knowledge

/-!
# The book is kept

Every step of a process, the chain or the reconciler keeps the relay's book.
-/

namespace LordsPot.Relay

open Transition

section Kept

variable {keccak256 : String → Bytes32} {s s' : State} {p p' : Proc} {call : Call}

theorem Effect.grown (e : Effect keccak256 s p call s') : Grown s.txs s'.txs := by
  rcases e.txs with same | ⟨b, chunk, txHash, -, -, -, he⟩
  · exact same ▸ .refl _
  · exact he ▸ Grown.append _ _

theorem Effect.kept (e : Effect keccak256 s p call s') :
    Kept s.db s'.db fun b => p.owns ≠ some b where
  columns := e.columns
  bound b hb t' ht' hbound := by
    obtain ⟨t, ht, rule⟩ := e.rows t' ht'
    refine ⟨t, ht, congrArg ChunkTicket.id rule.columns.symm, ?_⟩
    refine (rule.bind b hbound).resolve_right ?_
    rintro ⟨chunk, hbinds, -⟩
    refine hb ?_
    unfold Proc.binds at hbinds
    split at hbinds
    · cases hbinds
      rfl
    · cases hbinds

theorem ids_of_columns {rows rows' : List Ticket} (h : rows'.map select = rows.map select) :
    rows'.map (·.id) = rows.map (·.id) := by
  have := congrArg (List.map ChunkTicket.id) h
  rwa [List.map_map, List.map_map] at this

theorem OrderRows.kept {db db' : Db} (hashes : db'.relayOrders.map (·.hash) = db.relayOrders.map (·.hash))
    (rows : ∀ t' ∈ db'.tickets, ∃ t ∈ db.tickets, select t' = select t ∧ t'.orderHash = t.orderHash)
    {order : OrderRead} (h : OrderRows db order) : OrderRows db' order := by
  refine ⟨hashes ▸ h.1, fun c hc t' ht' hid => ?_⟩
  obtain ⟨t, ht, columns, same⟩ := rows t' ht'
  exact same.trans (h.2 c hc t ht ((congrArg ChunkTicket.id columns).symm.trans hid))

theorem Whole.kept {db db' : Db} (hashes : db'.relayOrders.map (·.hash) = db.relayOrders.map (·.hash))
    (rows : ∀ t' ∈ db'.tickets, ∃ t ∈ db.tickets, select t' = select t ∧ t'.orderHash = t.orderHash)
    {tx tx' : BuyTx} (orderId : tx'.orderId = tx.orderId) (tickets : tx'.tickets = tx.tickets)
    (h : Whole db tx) : Whole db' tx' := by
  obtain ⟨o, ho, he, whole⟩ := h
  obtain ⟨o', ho', hash⟩ := List.mem_map.1 (hashes ▸ List.mem_map_of_mem ho :
    o.hash ∈ db'.relayOrders.map (·.hash))
  refine ⟨o', ho', orderId.trans (he.trans hash.symm), fun t' ht' own => ?_⟩
  obtain ⟨t, ht, columns, same⟩ := rows t' ht'
  rw [tickets, show t'.id = t.id from congrArg ChunkTicket.id columns]
  exact whole t ht (same.symm.trans (own.trans hash))

/-- A ticket stamped by a call has been minted. -/
theorem stamped_of_stamps (book : Book keccak256 s) (injective : Function.Injective keccak256)
    (hp : p ∈ s.procs) {pair : ChunkTicket × NftId} (hpair : pair ∈ p.stamps s.db call) {t : Ticket}
    (ht : t ∈ s.db.tickets) (hid : pair.1.id = t.id) :
    ∃ tx ∈ s.txs, tx.ticketIds.isSome ∧ t.id ∈ tx.tickets.map (·.id) := by
  have known := book.procs p hp
  unfold Proc.stamps at hpair
  split at hpair
  · obtain ⟨⟨tx, htx, -, ids, covers⟩, -⟩ := known
    exact ⟨tx, htx, by rw [ids]; rfl, hid ▸ covers _ (List.of_mem_zip hpair).1⟩
  · rename_i order txHash ticketIds round
    split at hpair
    case isFalse => cases hpair
    obtain ⟨tx, htx, -, orderId, ids⟩ := known
    obtain ⟨hash, own⟩ := book.orders _ hp order rfl
    refine ⟨tx, htx, by rw [ids]; rfl,
      book.whole_of_orderId injective htx (orderId ▸ hash) ht ?_⟩
    rw [orderId]
    exact own _ (List.of_mem_zip hpair).1 t ht hid.symm
  · cases hpair

/-- A process is about to broadcast for the batch it owns, and knows what is bound to it. -/
theorem submits_eq {b : Uuid} {chunk : List ChunkTicket} (h : p.submits = some (b, chunk)) :
    p.owns = some b ∧ (∀ db txs, ProcOk db txs p → ∀ t ∈ db.tickets, t.relayBatchId = some b →
      t.id ∈ chunk.map (·.id)) ∧ (∀ db, Rows db p.inHand → Rows db chunk) ∧ p.binds = none := by
  unfold Proc.submits at h
  split at h
  · cases h
    exact ⟨rfl, fun _ _ known => known, fun _ rows => rows.right.left, rfl⟩
  · cases h

theorem binds_eq {b : Uuid} {chunk : List ChunkTicket} (h : p.binds = some (b, chunk)) :
    p.owns = some b := by
  unfold Proc.binds at h
  split at h
  · cases h
    rfl
  · cases h

theorem records_eq {b : Uuid} {txHash : TxHash} (h : p.records = some (b, txHash)) {db : Db}
    {txs : List BuyTx} (known : ProcOk db txs p) :
    ∃ tx ∈ txs, tx.hash = txHash ∧ tx.batchId = some b := by
  unfold Proc.records at h
  split at h
  · cases h
    obtain ⟨tx, htx, hash, batch, -⟩ := known
    exact ⟨tx, htx, hash, batch⟩
  · cases h

/-! ## One call -/

/-- A transaction is old, or it is the one just broadcast for the process's own batch. -/
theorem Effect.tx_cases (e : Effect keccak256 s p call s') {tx : BuyTx} (htx : tx ∈ s'.txs) :
    tx ∈ s.txs ∨ ∃ b, p.submits = some (b, tx.tickets) ∧ tx.batchId = some b ∧
      tx.orderId = deriveChunkOrderId keccak256 tx.tickets := by
  rcases e.txs with same | ⟨b, chunk, txHash, -, hs, -, he⟩
  · exact .inl (same ▸ htx)
  · rw [he] at htx
    rcases List.mem_append.1 htx with old | new
    · exact .inl old
    · cases List.mem_singleton.1 new
      exact .inr ⟨b, hs, rfl, rfl⟩

/-- A call loses no transaction, whatever is said of its order id and its batch. -/
theorem Effect.tx_stays (e : Effect keccak256 s p call s') {txHash : TxHash} {P : BuyTx → Prop}
    (stable : ∀ tx tx' : BuyTx, tx'.orderId = tx.orderId → tx'.batchId = tx.batchId → P tx → P tx')
    (there : ∃ tx ∈ s.txs, tx.hash = txHash ∧ P tx) : ∃ tx ∈ s'.txs, tx.hash = txHash ∧ P tx := by
  obtain ⟨tx, htx, hash, holds⟩ := there
  obtain ⟨tx', htx', hash', orderId, -, batch, -⟩ := e.grown tx htx
  exact ⟨tx', htx', hash'.trans hash, stable tx tx' orderId batch holds⟩

/-- A batch has one transaction: the process broadcasts for a batch that it owns, which has none. -/
theorem Book.oneTx_effect (book : Book keccak256 s) (hp : p ∈ s.procs)
    (e : Effect keccak256 s p call s') : ∀ tx ∈ s'.txs, ∀ tx' ∈ s'.txs, ∀ b, tx.batchId = some b →
      tx'.batchId = some b → tx = tx' := by
  rcases e.txs with same | ⟨b, chunk, txHash, -, hs, -, he⟩
  · exact same ▸ book.oneTx
  · have fresh := (book.owners p hp b (submits_eq hs).1).2
    rw [he]
    intro tx htx tx' htx' b' hb hb'
    rcases List.mem_append.1 htx with old | new <;> rcases List.mem_append.1 htx' with old' | new'
    · exact book.oneTx tx old tx' old' b' hb hb'
    · cases List.mem_singleton.1 new'
      exact absurd (hb.trans hb'.symm) (fresh tx old)
    · cases List.mem_singleton.1 new
      exact absurd (hb'.trans hb.symm) (fresh tx' old')
    · exact (List.mem_singleton.1 new).trans (List.mem_singleton.1 new').symm

/-- What is bound to the batch of a transaction is in the transaction: no ticket is bound to a batch
that has been broadcast, and the process knows what is bound to the batch it broadcasts for. -/
theorem Book.bound_effect (book : Book keccak256 s) (hp : p ∈ s.procs)
    (e : Effect keccak256 s p call s') : ∀ tx ∈ s'.txs, ∀ b, tx.batchId = some b →
      ∀ t' ∈ s'.db.tickets, t'.relayBatchId = some b → t'.id ∈ tx.tickets.map (·.id) := by
  intro tx htx b hb t' ht' hbound
  rcases e.tx_cases htx with old | ⟨b', hs, hb', -⟩
  · obtain ⟨t, ht, hid, hb'⟩ :=
      e.kept.bound b (fun hpb => (book.owners p hp b hpb).2 tx old hb) t' ht' hbound
    exact hid ▸ book.bound tx old b hb t ht hb'
  · obtain rfl : b' = b := Option.some.inj (hb'.symm.trans hb)
    obtain ⟨-, bounds, -, binds⟩ := submits_eq hs
    obtain ⟨t, ht, rule⟩ := e.rows t' ht'
    rw [show t'.id = t.id from congrArg ChunkTicket.id rule.columns]
    refine bounds _ _ (book.procs p hp) t ht ((rule.bind b' hbound).resolve_right ?_)
    rintro ⟨chunk, hc, -⟩
    rw [binds] at hc
    cases hc

theorem Book.stamped_effect (book : Book keccak256 s) (injective : Function.Injective keccak256)
    (hp : p ∈ s.procs) (e : Effect keccak256 s p call s') : ∀ t' ∈ s'.db.tickets, ∀ n,
      t'.megapotNftId = some n → ∃ tx ∈ s'.txs, tx.ticketIds.isSome ∧ t'.id ∈ tx.tickets.map (·.id) := by
  intro t' ht' n hn
  obtain ⟨t, ht, rule⟩ := e.rows t' ht'
  rw [show t'.id = t.id from congrArg ChunkTicket.id rule.columns]
  have minted : ∃ tx ∈ s.txs, tx.ticketIds.isSome ∧ t.id ∈ tx.tickets.map (·.id) := by
    rcases rule.stamp with same | ⟨pair, hpair, hid, -⟩
    · exact book.stamped t ht n (same ▸ hn)
    · exact stamped_of_stamps book injective hp hpair ht hid
  obtain ⟨tx, htx, some?, mem⟩ := minted
  obtain ⟨tx', htx', -, -, tickets, -, ids⟩ := e.grown tx htx
  obtain ⟨ticketIds, hids⟩ := Option.isSome_iff_exists.1 some?
  exact ⟨tx', htx', by rw [ids _ hids]; rfl, tickets ▸ mem⟩

section Move

variable {i : Nat}

theorem Book.other_owner (book : Book keccak256 s) (hi : s.procs[i]? = some p) {j : Nat} {q : Proc}
    (hj : s.procs[j]? = some q) (hij : i ≠ j) : ∀ b, q.owns = some b → p.owns ≠ some b :=
  fun b hb hpb => book.apart i j p q hi hj hij b hpb hb

/-- The processes after a call: the one that moved, and the others. -/
theorem mem_set_procs {q : Proc} (hq : q ∈ s.procs.set i p') :
    q = p' ∨ ∃ j, i ≠ j ∧ s.procs[j]? = some q := by
  obtain ⟨j, hj⟩ := List.mem_iff_getElem?.1 hq
  rcases Table.of_getElem?_set hj with ⟨-, same⟩ | ⟨other, old⟩
  · exact .inl same
  · exact .inr ⟨j, Ne.symm other, old⟩

/-- A batch that has an owner exists and has not been broadcast for. -/
theorem Book.owners_effect (book : Book keccak256 s) (hi : s.procs[i]? = some p)
    (e : Effect keccak256 s p call s') (after : After s p s' p') : ∀ q ∈ s.procs.set i p', ∀ b,
      q.owns = some b → b ∈ s'.db.relayBatches.map (·.id) ∧ ∀ tx ∈ s'.txs, tx.batchId ≠ some b := by
  intro q hq b hb
  rcases mem_set_procs hq with rfl | ⟨j, hij, hj⟩
  · obtain ⟨same, mem, mine⟩ := after.owns b hb
    refine ⟨mem, fun tx htx hbatch => ?_⟩
    rw [same] at htx
    rcases mine with old | new
    · exact (book.owners p (List.mem_of_getElem? hi) b old).2 tx htx hbatch
    · exact new (book.txBatches tx htx b hbatch)
  · obtain ⟨mem, none?⟩ := book.owners q (List.mem_of_getElem? hj) b hb
    refine ⟨e.batchIds b mem, fun tx htx hbatch => ?_⟩
    rcases e.tx_cases htx with old | ⟨b', hs, hb', -⟩
    · exact none? tx old hbatch
    · exact book.other_owner hi hj hij b hb (by rw [(submits_eq hs).1, ← hb', hbatch])

/-- A batch has one owner: the process owns what it owned, or has just created the batch. -/
theorem Book.apart_effect (book : Book keccak256 s) (hi : s.procs[i]? = some p)
    (after : After s p s' p') (k j : Nat) (q r : Proc) (hk : (s.procs.set i p')[k]? = some q)
    (hj : (s.procs.set i p')[j]? = some r) (hkj : k ≠ j) (b : Uuid) (hq : q.owns = some b) :
    r.owns ≠ some b := by
  have new_apart : ∀ {n : Nat} {u : Proc}, s.procs[n]? = some u → i ≠ n → u.owns = some b →
      p'.owns ≠ some b := by
    intro n u hn hin hb hb'
    rcases (after.owns b hb').2.2 with old | new
    · exact book.other_owner hi hn hin b hb old
    · exact new (book.owners u (List.mem_of_getElem? hn) b hb).1
  intro hr
  rcases Table.of_getElem?_set hk with ⟨rfl, rfl⟩ | ⟨hki, oldK⟩
  · rcases Table.of_getElem?_set hj with ⟨rfl, -⟩ | ⟨hji, oldJ⟩
    · exact hkj rfl
    · exact new_apart oldJ (Ne.symm hji) hr hq
  · rcases Table.of_getElem?_set hj with ⟨rfl, rfl⟩ | ⟨hji, oldJ⟩
    · exact new_apart oldK (Ne.symm hki) hq hr
    · exact book.apart k j q r oldK oldJ hkj b hq hr

/-- **The call rule**: a call keeps the book. -/
theorem Book.effect (book : Book keccak256 s) (injective : Function.Injective keccak256)
    (hi : s.procs[i]? = some p) (e : Effect keccak256 s p call s') (after : After s p s' p')
    (order : ∀ order, p'.order? = some order → OrderRows s.db order) :
    Book keccak256 { s' with procs := s.procs.set i p' } := by
  have hp : p ∈ s.procs := List.mem_of_getElem? hi
  have rows : ∀ t' ∈ s'.db.tickets, ∃ t ∈ s.db.tickets,
      select t' = select t ∧ t'.orderHash = t.orderHash := fun t' ht' =>
    have ⟨t, ht, rule⟩ := e.rows t' ht'
    ⟨t, ht, rule.columns, rule.order⟩
  have oneTx := book.oneTx_effect hp e
  have bound := book.bound_effect hp e
  have stamped := book.stamped_effect injective hp e
  have owners := book.owners_effect hi e after
  constructor
  case ticketIds => exact ids_of_columns e.columns ▸ book.ticketIds
  case orderHashes => exact e.hashes ▸ book.orderHashes
  case hashed =>
    intro o' ho'
    obtain ⟨o, ho, rule⟩ := e.orders o' ho'
    rw [rule.hash, rule.signature]
    exact book.hashed o ho
  case uuids => exact e.columns ▸ book.uuids
  case txHashes =>
    rcases e.txs with same | ⟨b, chunk, txHash, -, -, fresh, he⟩
    · exact same ▸ book.txHashes
    · rw [he]
      refine Table.nodup_insert book.txHashes fun h => ?_
      obtain ⟨tx, htx, hh⟩ := List.mem_map.1 h
      exact fresh tx htx hh
  case txRows =>
    intro tx htx
    rcases e.tx_cases htx with old | ⟨b, hs, -, -⟩
    · exact (book.txRows tx old).kept e.columns
    · exact ((submits_eq hs).2.2.1 _ (book.inHand p hp)).kept e.columns
  case kinds =>
    intro tx htx
    rcases e.tx_cases htx with old | ⟨b, -, -, orderId⟩
    · exact (book.kinds tx old).imp_left fun h => h.kept e.hashes rows rfl rfl
    · exact .inr orderId
  case oneTx => exact oneTx
  case bound => exact bound
  case batchHashes =>
    intro b' hb' txHash hh
    refine e.tx_stays (fun _ _ _ same h => same.trans h) ?_
    rcases e.batches b' hb' txHash hh with ⟨b, hb, hid, hold⟩ | hr
    · exact hid ▸ book.batchHashes b hb txHash hold
    · exact records_eq hr (book.procs p hp)
  case orderTxs =>
    intro o' ho' txHash hh
    refine e.tx_stays (fun _ _ same _ h => same.trans h) ?_
    obtain ⟨o, ho, rule⟩ := e.orders o' ho'
    rw [rule.hash]
    rcases rule.baseTxHash with same | ⟨order, hash, ticketIds, round, rfl, ho', hset⟩
    · exact book.orderTxs o ho txHash (same ▸ hh)
    · obtain ⟨tx, htx, hash', orderId, -⟩ := book.procs _ hp
      exact ⟨tx, htx, hash'.trans (Option.some.inj (hset.symm.trans hh)), orderId.trans ho'.symm⟩
  case boundBatches =>
    intro t' ht' b hb
    obtain ⟨t, ht, rule⟩ := e.rows t' ht'
    rcases rule.bind b hb with old | ⟨chunk, hc, -⟩
    · exact e.batchIds b (book.boundBatches t ht b old)
    · exact e.batchIds b (book.owners p hp b (binds_eq hc)).1
  case txBatches =>
    intro tx htx b hb
    rcases e.tx_cases htx with old | ⟨b', hs, hb', -⟩
    · exact e.batchIds b (book.txBatches tx old b hb)
    · obtain rfl : b' = b := Option.some.inj (hb'.symm.trans hb)
      exact e.batchIds b' (book.owners p hp b' (submits_eq hs).1).1
  case stamped => exact stamped
  case inHand =>
    intro q hq
    rcases mem_set_procs hq with rfl | ⟨j, -, hj⟩
    · exact after.inHand.kept e.columns
    · exact (book.inHand q (List.mem_of_getElem? hj)).kept e.columns
  case orders =>
    intro q hq o ho
    rcases mem_set_procs hq with rfl | ⟨j, -, hj⟩
    · exact (order o ho).kept e.hashes rows
    · exact (book.orders q (List.mem_of_getElem? hj) o ho).kept e.hashes rows
  case procs =>
    intro q hq
    rcases mem_set_procs hq with rfl | ⟨j, hij, hj⟩
    · exact after.known
    · exact (book.procs q (List.mem_of_getElem? hj)).keeps e.kept e.grown (book.other_owner hi hj hij)
  case owners => exact owners
  case apart => exact book.apart_effect hi after

end Move

/-- What a call that loses its answer leaves. -/
theorem Book.procCall (book : Book keccak256 s) (injective : Function.Injective keccak256) {i : Nat}
    (hi : s.procs[i]? = some p) (h : procStep keccak256 s p call = some (s', p'))
    (lost : Bool) :
    Book keccak256 { s' with procs := s.procs.set i (if lost then p.thrown else p') } := by
  have hp : p ∈ s.procs := List.mem_of_getElem? hi
  cases lost with
  | false =>
    exact book.effect injective hi (procStep_effect h) (procStep_after book injective hp h)
      fun order ho => procStep_order book hp h ho
  | true =>
    exact book.effect injective hi (procStep_effect h) (.thrown (book.inHand p hp))
      fun order ho => book.orders p hp order (thrown_order ho)

/-- A new process that has nothing in hand. -/
theorem Book.start (book : Book keccak256 s) (known : ProcOk s.db s.txs p) (empty : p.inHand = [])
    (none? : p.order? = none) (idle : p.owns = none) :
    Book keccak256 { s with procs := s.procs ++ [p] } where
  __ := book
  inHand q hq := by
    rcases List.mem_append.1 hq with old | new
    · exact book.inHand q old
    · cases List.mem_singleton.1 new
      rw [empty]
      nofun
  orders q hq order ho := by
    rcases List.mem_append.1 hq with old | new
    · exact book.orders q old order ho
    · cases List.mem_singleton.1 new
      rw [none?] at ho
      cases ho
  procs q hq := by
    rcases List.mem_append.1 hq with old | new
    · exact book.procs q old
    · cases List.mem_singleton.1 new
      exact known
  owners q hq b hb := by
    rcases List.mem_append.1 hq with old | new
    · exact book.owners q old b hb
    · cases List.mem_singleton.1 new
      rw [idle] at hb
      cases hb
  apart i j q r hi hj hij b hq hr := by
    have old : ∀ {k : Nat} {u : Proc}, (s.procs ++ [p])[k]? = some u → u.owns = some b →
        s.procs[k]? = some u := by
      intro k u hk hu
      rcases Table.of_getElem?_concat hk with old | ⟨-, rfl⟩
      · exact old
      · rw [idle] at hu
        cases hu
    exact book.apart i j q r (old hi hq) (old hj hr) hij b hq hr

/-- A change of what has become of the transactions, which leaves minted ids alone. -/
theorem Book.outcomes (book : Book keccak256 s) {q : BuyTx → Bool} {f : BuyTx → BuyTx}
    (keep : ∀ tx ∈ s.txs, q tx = true → Later tx (f tx)) :
    Book keccak256 { s with txs := Table.updateMany q f s.txs } := by
  have grown := Grown.updateMany keep
  have back : ∀ tx' ∈ Table.updateMany q f s.txs, ∃ tx ∈ s.txs, tx'.orderId = tx.orderId ∧
      tx'.tickets = tx.tickets ∧ tx'.batchId = tx.batchId := by
    intro tx' htx'
    obtain ⟨tx, htx, rfl⟩ := Table.mem_updateMany.1 htx'
    refine ⟨tx, htx, ?_⟩
    split
    · rename_i hq
      exact ⟨(keep tx htx hq).2.1, (keep tx htx hq).2.2.1, (keep tx htx hq).2.2.2.1⟩
    · exact ⟨rfl, rfl, rfl⟩
  have same : Kept s.db s.db fun _ => True := ⟨rfl, fun _ _ t ht hb => ⟨t, ht, rfl, hb⟩⟩
  refine { book with
    txHashes := ?_, txRows := ?_, kinds := ?_, oneTx := ?_, bound := ?_, batchHashes := ?_,
    orderTxs := ?_, txBatches := ?_, stamped := ?_, procs := ?_, owners := ?_ }
  · exact (Table.map_updateMany _ fun tx htx hq => (keep tx htx hq).1) ▸ book.txHashes
  · intro tx' htx'
    obtain ⟨tx, htx, -, tickets, -⟩ := back tx' htx'
    exact tickets ▸ book.txRows tx htx
  · intro tx' htx'
    obtain ⟨tx, htx, orderId, tickets, -⟩ := back tx' htx'
    rw [orderId, tickets]
    exact (book.kinds tx htx).imp_left fun h =>
      h.kept rfl (fun t ht => ⟨t, ht, rfl, rfl⟩) orderId tickets
  · intro tx₁' h₁' tx₂' h₂' b hb₁ hb₂
    obtain ⟨tx₁, h₁, rfl⟩ := Table.mem_updateMany.1 h₁'
    obtain ⟨tx₂, h₂, rfl⟩ := Table.mem_updateMany.1 h₂'
    have batch : ∀ tx ∈ s.txs, (if q tx then f tx else tx).batchId = tx.batchId := by
      intro tx htx
      split
      · rename_i hq
        exact (keep tx htx hq).2.2.2.1
      · rfl
    rw [book.oneTx tx₁ h₁ tx₂ h₂ b ((batch tx₁ h₁).symm.trans hb₁) ((batch tx₂ h₂).symm.trans hb₂)]
  · intro tx' htx' b hb
    obtain ⟨tx, htx, -, tickets, batch⟩ := back tx' htx'
    exact tickets ▸ book.bound tx htx b (batch ▸ hb)
  · intro b hb h hh
    obtain ⟨tx, htx, hash, batch⟩ := book.batchHashes b hb h hh
    obtain ⟨tx', htx', hash', -, -, batch', -⟩ := grown tx htx
    exact ⟨tx', htx', hash'.trans hash, batch'.trans batch⟩
  · intro o ho h hh
    obtain ⟨tx, htx, hash, orderId⟩ := book.orderTxs o ho h hh
    obtain ⟨tx', htx', hash', orderId', -⟩ := grown tx htx
    exact ⟨tx', htx', hash'.trans hash, orderId'.trans orderId⟩
  · intro tx' htx' b hb
    obtain ⟨tx, htx, -, -, batch⟩ := back tx' htx'
    exact book.txBatches tx htx b (batch ▸ hb)
  · intro t ht n hn
    obtain ⟨tx, htx, some?, mem⟩ := book.stamped t ht n hn
    obtain ⟨ticketIds, hids⟩ := Option.isSome_iff_exists.1 some?
    obtain ⟨tx', htx', -, -, tickets, -, ids⟩ := grown tx htx
    exact ⟨tx', htx', by rw [ids _ hids]; rfl, tickets ▸ mem⟩
  · exact fun p hp => (book.procs p hp).keeps same grown fun _ _ => trivial
  · intro p hp b hb
    refine ⟨(book.owners p hp b hb).1, fun tx' htx' hbatch => ?_⟩
    obtain ⟨tx, htx, -, -, batch⟩ := back tx' htx'
    exact (book.owners p hp b hb).2 tx htx (batch ▸ hbatch)

theorem Book.requeue (book : Book keccak256 s) :
    Book keccak256 { s with db := requeueDeferred s.db } := by
  have hashes : (requeueDeferred s.db).relayOrders.map (·.hash) = s.db.relayOrders.map (·.hash) :=
    Table.map_updateMany _ fun _ _ _ => rfl
  have rows : ∀ t' ∈ s.db.tickets, ∃ t ∈ s.db.tickets,
      select t' = select t ∧ t'.orderHash = t.orderHash := fun t ht => ⟨t, ht, rfl, rfl⟩
  have kept : Kept s.db (requeueDeferred s.db) fun _ => True :=
    ⟨rfl, fun _ _ t ht hb => ⟨t, ht, rfl, hb⟩⟩
  have back : ∀ o' ∈ (requeueDeferred s.db).relayOrders, ∃ o ∈ s.db.relayOrders,
      o'.hash = o.hash ∧ o'.signature = o.signature ∧ o'.baseTxHash = o.baseTxHash := by
    intro o' ho'
    obtain ⟨o, ho, rfl⟩ := Table.mem_updateMany.1 ho'
    exact ⟨o, ho, by split <;> rfl, by split <;> rfl, by split <;> rfl⟩
  refine { book with
    orderHashes := hashes ▸ book.orderHashes, hashed := ?_, kinds := ?_, orderTxs := ?_,
    orders := ?_, procs := ?_ }
  · intro o' ho'
    obtain ⟨o, ho, hash, signature, -⟩ := back o' ho'
    rw [hash, signature]
    exact book.hashed o ho
  · exact fun tx htx => (book.kinds tx htx).imp_left fun h => h.kept hashes rows rfl rfl
  · intro o' ho' h hh
    obtain ⟨o, ho, hash, -, base⟩ := back o' ho'
    exact hash ▸ book.orderTxs o ho h (base ▸ hh)
  · exact fun p hp order ho => (book.orders p hp order ho).kept hashes rows
  · exact fun p hp => (book.procs p hp).keeps kept (.refl _) fun _ _ => trivial

theorem later_of_pending {tx : BuyTx} (pending : tx.outcome = .pending) (outcome : Outcome) :
    Later tx { tx with outcome := outcome } :=
  ⟨rfl, rfl, rfl, rfl, fun ids hids => by simp [BuyTx.ticketIds, pending] at hids⟩

/-- The transaction that a mined hash stands for. -/
theorem mined_tx {hash : TxHash} {ticketIds : List NftId} (can : canMine s hash ticketIds = true) :
    ∃ tx ∈ s.txs, tx.hash = hash ∧ tx.outcome = .pending ∧ isOrderFulfilled s.txs tx.orderId = false ∧
      tx.tickets.length = ticketIds.length := by
  rw [canMine, Bool.and_eq_true] at can
  obtain ⟨tx, htx, hmine⟩ := List.any_eq_true.1 can.2
  simp only [Bool.and_eq_true, beq_iff_eq, Bool.not_eq_true'] at hmine
  exact ⟨tx, htx, hmine.1.1.1, hmine.1.1.2, hmine.1.2, hmine.2⟩

theorem Book.later_mine (book : Book keccak256 s) {hash : TxHash} {ticketIds : List NftId}
    (can : canMine s hash ticketIds = true) : ∀ tx ∈ s.txs, (tx.hash == hash) = true →
      Later tx { tx with outcome := .minted s.drawing ticketIds } := by
  intro tx htx hq
  obtain ⟨own, hown, hash', pending, -⟩ := mined_tx can
  obtain rfl := book.tx_unique htx hown ((beq_iff_eq.1 hq).trans hash'.symm)
  exact later_of_pending pending _

theorem later_revert (hash : TxHash) :
    ∀ tx ∈ s.txs, (tx.hash == hash && tx.outcome == .pending) = true →
      Later tx { tx with outcome := .reverted } := by
  intro tx _ hq
  rw [Bool.and_eq_true, beq_iff_eq, beq_iff_eq] at hq
  exact later_of_pending hq.2 _

/-- **The book rule**: every step keeps the book. -/
theorem Book.step (book : Book keccak256 s) (injective : Function.Injective keccak256) {a : Action}
    (hs : Relay.step keccak256 s a = some s') : Book keccak256 s' := by
  cases stepMove hs with
  | job | confirm | reset => exact book.start trivial rfl rfl rfl
  | requeue => exact book.requeue
  | call here move => exact book.procCall injective here move _
  | mine can => exact book.outcomes (book.later_mine can)
  | revert => exact book.outcomes (later_revert _)
  | rollover => exact { book with }

theorem Book.grown_step (book : Book keccak256 s) {a : Action}
    (hs : Relay.step keccak256 s a = some s') : Grown s.txs s'.txs := by
  cases stepMove hs with
  | call here move => exact (procStep_effect move).grown
  | mine can => exact .updateMany (book.later_mine can)
  | revert => exact .updateMany (later_revert _)
  | _ => exact .refl _

theorem Book.initial (h : Initial keccak256 s) : Book keccak256 s where
  ticketIds := h.ticketIds
  orderHashes := h.orderHashes
  hashed o ho := ⟨h.hashed o ho, h.signatures o ho⟩
  uuids c hc := by
    obtain ⟨t, ht, rfl⟩ := List.mem_map.1 hc
    exact h.uuids t ht
  txHashes := h.txHashes
  txRows tx htx c hc := by
    obtain ⟨-, -, o, -, -, perm⟩ := h.single tx htx
    obtain ⟨t, ht, rfl⟩ := List.mem_map.1 (perm.mem_iff.1 hc)
    exact List.mem_map_of_mem (List.mem_filter.1 ht).1
  kinds tx htx := by
    obtain ⟨-, -, o, ho, he, perm⟩ := h.single tx htx
    refine .inl ⟨o, ho, he, fun t ht own => ?_⟩
    have mem : select t ∈ tx.tickets := perm.mem_iff.2
      (List.mem_map_of_mem (List.mem_filter.2 ⟨ht, beq_iff_eq.2 own⟩))
    exact List.mem_map_of_mem (f := ChunkTicket.id) mem
  oneTx tx htx _ _ b hb := by rw [(h.single tx htx).1] at hb; cases hb
  bound tx htx b hb := by rw [(h.single tx htx).1] at hb; cases hb
  batchHashes := by rw [h.noBatches]; nofun
  orderTxs := h.recorded
  boundBatches t ht b hb := by rw [h.unbound t ht] at hb; cases hb
  txBatches tx htx b hb := by rw [(h.single tx htx).1] at hb; cases hb
  stamped t ht n hn := by rw [h.unstamped t ht] at hn; cases hn
  inHand := by rw [h.noProcs]; nofun
  orders := by rw [h.noProcs]; nofun
  procs := by rw [h.noProcs]; nofun
  owners := by rw [h.noProcs]; nofun
  apart i j p q hi := by rw [h.noProcs] at hi; cases hi

end Kept

end LordsPot.Relay
