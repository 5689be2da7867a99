import LordsPot.Ingest.Created
import LordsPot.Relay.Kept

/-!
# Orders that arrive

The relay's machine starts with all its orders. Here one arrives while the relay is at work: the book
is kept, since what is known of the rows that were there does not speak of new ones. In the other
direction the relay leaves the columns alone that an order and its tickets were created with.
-/

namespace LordsPot.Relay

open Transition

variable {keccak256 : String → Bytes32} {s s' : State} {o : RelayOrder} {rows : List Ticket}

/-- A new order with its tickets, of which nothing has been relayed. -/
structure Arrives (keccak256 : String → Bytes32) (db : Db) (o : RelayOrder) (rows : List Ticket) :
    Prop where
  hashed : o.hash = keccak256 o.signature ∧ '-' ∉ o.signature.toList ∧ o.signature ≠ ""
  fresh : o.hash ∉ db.relayOrders.map (·.hash)
  unsent : o.baseTxHash = none
  own : ∀ t ∈ rows, t.orderHash = o.hash ∧ t.megapotNftId = none ∧ t.relayBatchId = none
  ids : ((db.tickets ++ rows).map (·.id)).Nodup
  uuids : ∀ t ∈ rows, '-' ∈ t.id.toList ∧ ',' ∉ t.id.toList

def arrive (s : State) (o : RelayOrder) (rows : List Ticket) : State :=
  { s with db := { s.db with
      relayOrders := s.db.relayOrders ++ [o]
      tickets := s.db.tickets ++ rows } }

theorem order_inHand {p : Proc} {order : OrderRead} (is : p.order? = some order) :
    order.tickets ⊆ p.inHand := by
  cases p <;> cases is
  case relaying => exact List.subset_append_left _ _
  all_goals exact List.Subset.refl _

theorem Rows.more {db : Db} {tickets : List ChunkTicket} (h : Rows db tickets) :
    Rows { db with relayOrders := db.relayOrders ++ [o], tickets := db.tickets ++ rows } tickets := by
  intro c hc
  rw [List.map_append]
  exact List.mem_append_left _ (h c hc)

theorem Arrives.old {db : Db} (h : Arrives keccak256 db o rows) {t : Ticket} (ht : t ∈ db.tickets ++ rows)
    (is : t.orderHash ≠ o.hash ∨ t.megapotNftId ≠ none ∨ t.relayBatchId ≠ none) : t ∈ db.tickets := by
  rcases List.mem_append.1 ht with old | new
  · exact old
  · obtain ⟨order, stamp, batch⟩ := h.own t new
    rcases is with is | is | is <;> contradiction

theorem ProcOk.arrive (h : Arrives keccak256 s.db o rows) {p : Proc} (known : ProcOk s.db s.txs p) :
    ProcOk (arrive s o rows).db s.txs p := by
  cases p with
  | relaying order round phase =>
    cases phase with
    | binding b batchIndex chunk rest =>
      intro t ht bound
      exact known t (h.old ht (.inr (.inr (by rw [bound]; exact nofun)))) bound
    | submitting b batchIndex chunk rest =>
      intro t ht bound
      exact known t (h.old ht (.inr (.inr (by rw [bound]; exact nofun)))) bound
    | _ => exact known
  | submitted order baseTxHash => cases baseTxHash <;> exact known
  | _ => exact known

/-- **The arrival rule**: an order that arrives with its tickets keeps the book. -/
theorem Book.arrive (book : Book keccak256 s) (h : Arrives keccak256 s.db o rows) :
    Book keccak256 (arrive s o rows) := by
  have bound : ∀ {t : Ticket} {b : Uuid}, t ∈ (Relay.arrive s o rows).db.tickets →
      t.relayBatchId = some b → t ∈ s.db.tickets := fun ht bound =>
    h.old ht (.inr (.inr (by rw [bound]; exact nofun)))
  have oldHash : ∀ {o' : RelayOrder}, o' ∈ s.db.relayOrders → o'.hash ≠ o.hash := fun ho' same =>
    h.fresh (same ▸ List.mem_map_of_mem ho')
  exact {
    ticketIds := h.ids
    orderHashes := Table.nodup_insert book.orderHashes h.fresh
    hashed := List.forall_mem_append.2 ⟨book.hashed, fun o' new => List.mem_singleton.1 new ▸ h.hashed⟩
    uuids := by
      intro c hc
      obtain ⟨t, ht, rfl⟩ := List.mem_map.1 hc
      rcases List.mem_append.1 ht with old | new
      · exact book.uuids _ (List.mem_map_of_mem old)
      · exact h.uuids t new
    txHashes := book.txHashes
    txRows := fun tx htx => (book.txRows tx htx).more
    kinds := by
      intro tx htx
      refine (book.kinds tx htx).imp_left fun ⟨o', ho', is, whole⟩ => ?_
      refine ⟨o', List.mem_append_left _ ho', is, fun t ht own => ?_⟩
      exact whole t (h.old ht (.inl (own.trans_ne (oldHash ho')))) own
    oneTx := book.oneTx
    bound := fun tx htx b is t ht isBound => book.bound tx htx b is t (bound ht isBound) isBound
    batchHashes := book.batchHashes
    orderTxs := by
      intro o' ho' hash is
      rcases List.mem_append.1 ho' with old | new
      · exact book.orderTxs o' old hash is
      · rw [List.mem_singleton.1 new, h.unsent] at is
        cases is
    boundBatches := fun t ht b is => book.boundBatches t (bound ht is) b is
    txBatches := book.txBatches
    stamped := fun t ht n is =>
      book.stamped t (h.old ht (.inr (.inl (by rw [is]; exact nofun)))) n is
    inHand := fun p hp => (book.inHand p hp).more
    orders := by
      intro p hp order is
      obtain ⟨known, own⟩ := book.orders p hp order is
      refine ⟨?_, fun c hc t ht same => ?_⟩
      · rw [Relay.arrive, List.map_append]
        exact List.mem_append_left _ known
      · rcases List.mem_append.1 ht with old | new
        · exact own c hc t old same
        · have ids := h.ids
          obtain ⟨u, hu, row⟩ := List.mem_map.1 (book.inHand p hp c (order_inHand is hc))
          rw [List.map_append] at ids
          refine absurd same (Ne.symm ((List.nodup_append.1 ids).2.2 _ ?_ _ (List.mem_map_of_mem new)))
          exact List.mem_map.2 ⟨u, hu, congrArg ChunkTicket.id row⟩
    procs := fun p hp => (book.procs p hp).arrive h
    owners := book.owners
    apart := book.apart }

/-! ## What the relay leaves alone -/

theorem created_of_columns {db db' : Db}
    (orders : db'.relayOrders.map (·.created) = db.relayOrders.map (·.created))
    (tickets : db'.tickets.map (·.created) = db.tickets.map (·.created)) : db'.created = db.created := by
  rw [Db.created, Db.created, orders, tickets]

theorem created_orders {q : RelayOrder → Bool} {f : RelayOrder → RelayOrder}
    (keep : ∀ o, (f o).created = o.created) (orders : List RelayOrder) :
    (Table.updateMany q f orders).map (·.created) = orders.map (·.created) :=
  Table.map_updateMany RelayOrder.created fun o _ _ => keep o

theorem created_tickets {q : Ticket → Bool} {f : Ticket → Ticket}
    (keep : ∀ t, (f t).created = t.created) (tickets : List Ticket) :
    (Table.updateMany q f tickets).map (·.created) = tickets.map (·.created) :=
  Table.map_updateMany Ticket.created fun t _ _ => keep t

theorem created_stamp (h : Option TxHash) (pairs : List (ChunkTicket × NftId)) (rows : List Ticket) :
    (stamp h pairs rows).map (·.created) = rows.map (·.created) := by
  induction pairs generalizing rows with
  | nil => rfl
  | cons pair pairs ih =>
    rw [stamp_cons, ih]
    exact created_tickets (by exact fun _ => rfl) rows

theorem created_lastWrite {db : Db} {p : Proc} (write : LastWrite s.db p db) :
    db.created = s.db.created := by
  cases write with
  | finalize =>
    unfold finalizeOrderSuccess
    split
    · exact created_of_columns (created_orders (by exact fun _ => rfl) _) (created_stamp ..)
    · rfl
  | _ => exact created_of_columns (created_orders (by exact fun _ => rfl) _) rfl

theorem created_phaseMove {order : OrderRead} {round : Nat} {phase : Phase} {call : Call} {p' : Proc}
    (move : PhaseMove keccak256 s order round phase call s' p') : s'.db.created = s.db.created := by
  cases move with
  | confirm => exact created_of_columns rfl (created_stamp ..)
  | bind => exact created_of_columns rfl (created_tickets (by exact fun _ => rfl) _)
  | release => exact created_of_columns rfl (created_tickets (by exact fun _ => rfl) _)
  | succeed => exact created_of_columns (created_orders (by exact fun _ => rfl) _) rfl
  | _ => rfl

theorem created_procStep {p p' : Proc} {call : Call}
    (h : procStep keccak256 s p call = some (s', p')) : s'.db.created = s.db.created := by
  cases procMove h with
  | phase move => exact created_phaseMove move
  | lastWrite write => exact created_lastWrite write
  | lock | lockTaken => exact created_of_columns (created_orders (by exact fun _ => rfl) _) rfl
  | _ => rfl

/-- No step of the relay touches what an order or a ticket was created with. -/
theorem created_step {a : Action} (hs : step keccak256 s a = some s') :
    s'.db.created = s.db.created := by
  cases stepMove hs with
  | requeue => exact created_of_columns (created_orders (by exact fun _ => rfl) _) rfl
  | call here move =>
    have same := created_procStep move
    exact same
  | _ => rfl

end LordsPot.Relay
