import LordsPot.Relay.Kept
import LordsPot.Relay.Minted

/-!
# Whose tickets a job has in hand

However many jobs are at work, the tickets a job has in hand are its own order's: it reads the
pending ones by the order, and the stuck ones by batches of the order, and no ticket is ever bound
to a batch of another order.
-/

namespace LordsPot.Relay

open Transition

/-- The batches, each with its order. -/
def batchKeys (db : Db) : List (Uuid × Bytes32) := db.relayBatches.map fun b => (b.id, b.orderHash)

/-- These are tickets of the order. -/
def Mine (db : Db) (hash : Bytes32) (tickets : List ChunkTicket) : Prop :=
  ∀ c ∈ tickets, c.id ∈ (rowsOf db hash).map (·.id)

/-- A job of this order has the order's tickets in hand, and binds them to a batch of the order. -/
structure OwnPhase (db : Db) (hash : Bytes32) (phase : Phase) : Prop where
  inHand : Mine db hash phase.inHand
  batch : ∀ b batchIndex chunk rest, phase = .binding b batchIndex chunk rest →
    (b, hash) ∈ batchKeys db

structure Owned (s : State) : Prop where
  ticketIds : (s.db.tickets.map (·.id)).Nodup
  batchIds : ((batchKeys s.db).map (·.1)).Nodup
  bound : ∀ t ∈ s.db.tickets, ∀ b, t.relayBatchId = some b → (b, t.orderHash) ∈ batchKeys s.db
  jobs : ∀ order round phase, .relaying order round phase ∈ s.procs → OwnPhase s.db order.hash phase

/-- Tickets and batches keep their orders. -/
structure Stays (db db' : Db) : Prop where
  mine : ∀ hash id, id ∈ (rowsOf db hash).map (·.id) ↔ id ∈ (rowsOf db' hash).map (·.id)
  keys : ∀ key ∈ batchKeys db, key ∈ batchKeys db'

section Mine

variable {db db' : Db} {hash : Bytes32} {tickets more : List ChunkTicket}

theorem Mine.left (h : Mine db hash (tickets ++ more)) : Mine db hash tickets :=
  fun c hc => h c (List.mem_append_left _ hc)

theorem Mine.right (h : Mine db hash (tickets ++ more)) : Mine db hash more :=
  fun c hc => h c (List.mem_append_right _ hc)

theorem Mine.stays (h : Mine db hash tickets) (stays : Stays db db') : Mine db' hash tickets :=
  fun c hc => (stays.mine hash _).1 (h c hc)

theorem mine_of_returned {q : Ticket → Bool} (read : returned db q tickets = true)
    (own : ∀ t ∈ db.tickets, q t = true → t.orderHash = hash) : Mine db hash tickets := by
  intro c hc
  obtain ⟨t, ht, is, rfl⟩ := mem_returned read hc
  exact List.mem_map.2 ⟨t, mem_rowsOf.2 ⟨ht, own t ht is⟩, rfl⟩

/-- One ticket id, one order. -/
theorem order_of_mine (unique : (db.tickets.map (·.id)).Nodup) {id : Uuid}
    (mine : id ∈ (rowsOf db hash).map (·.id)) {t : Ticket} (ht : t ∈ db.tickets) (same : t.id = id) :
    t.orderHash = hash := by
  obtain ⟨u, hu, rfl⟩ := List.mem_map.1 mine
  obtain ⟨hu, own⟩ := mem_rowsOf.1 hu
  obtain rfl := List.inj_on_of_nodup_map unique ht hu same
  exact own

end Mine

section Calls

variable {keccak256 : String → Bytes32} {s s' : State} {p p' : Proc} {call : Call}

theorem batchKeys_updateMany {q : RelayBatch → Bool} {f : RelayBatch → RelayBatch}
    (keep : ∀ b, (f b).id = b.id ∧ (f b).orderHash = b.orderHash) (batches : List RelayBatch) :
    (Table.updateMany q f batches).map (fun b => (b.id, b.orderHash)) =
      batches.map fun b => (b.id, b.orderHash) :=
  Table.map_updateMany _ fun b _ _ => Prod.ext_iff.2 (keep b)

/-- A call leaves the batches as they are, or creates one. -/
theorem batchKeys_procStep (h : procStep keccak256 s p call = some (s', p')) :
    batchKeys s'.db = batchKeys s.db ∨ ∃ b hash, b ∉ (batchKeys s.db).map (·.1) ∧
      batchKeys s'.db = batchKeys s.db ++ [(b, hash)] := by
  cases procMove h with
  | phase move =>
    cases move with
    | confirm | release | record =>
      refine .inl (batchKeys_updateMany ?_ _)
      exact fun _ => ⟨rfl, rfl⟩
    | create fresh =>
      rename_i order round b batchIndex chunk rest
      refine .inr ⟨b, order.hash, fun old => ?_, List.map_append⟩
      rw [batchKeys, List.map_map] at old
      obtain ⟨r, hr, id⟩ := List.mem_map.1 old
      have new := List.all_eq_true.1 fresh r hr
      rw [bne_iff_ne] at new
      exact new id
    | _ => exact .inl rfl
  | lastWrite write =>
    cases write with
    | finalize =>
      rw [finalizeOrderSuccess]
      split <;> exact .inl rfl
    | _ => exact .inl rfl
  | _ => exact .inl rfl

theorem Owned.stays (h : Owned s) (hstep : procStep keccak256 s p call = some (s', p')) :
    Stays s.db s'.db := by
  have effect := procStep_effect hstep
  constructor
  · intro hash id
    refine ⟨fun hid => ?_, fun hid => ?_⟩
    all_goals
      obtain ⟨t, ht, rfl⟩ := List.mem_map.1 hid
      obtain ⟨ht, own⟩ := mem_rowsOf.1 ht
    case refine_2 =>
      obtain ⟨u, hu, row⟩ := effect.rows t ht
      exact List.mem_map.2 ⟨u, mem_rowsOf.2 ⟨hu, row.order.symm.trans own⟩,
        congrArg ChunkTicket.id row.columns.symm⟩
    have column : select t ∈ s'.db.tickets.map select := effect.columns ▸ List.mem_map_of_mem ht
    obtain ⟨t', ht', same⟩ := List.mem_map.1 column
    obtain ⟨u, hu, row⟩ := effect.rows t' ht'
    have id : u.id = t.id := congrArg ChunkTicket.id (row.columns.symm.trans same)
    obtain rfl := List.inj_on_of_nodup_map h.ticketIds hu ht id
    exact List.mem_map.2 ⟨t', mem_rowsOf.2 ⟨ht', row.order.trans own⟩, congrArg ChunkTicket.id same⟩
  · intro key hkey
    rcases batchKeys_procStep hstep with same | ⟨b, hash, -, more⟩
    · rw [same]
      exact hkey
    · rw [more]
      exact List.mem_append_left _ hkey

theorem OwnPhase.stays {db db' : Db} {hash : Bytes32} {phase : Phase} (h : OwnPhase db hash phase)
    (stays : Stays db db') : OwnPhase db' hash phase where
  inHand := h.inHand.stays stays
  batch b batchIndex chunk rest is := stays.keys _ (h.batch b batchIndex chunk rest is)

/-- Outside the binding of a chunk only the tickets in hand matter. -/
theorem OwnPhase.of_mine {db : Db} {hash : Bytes32} {phase : Phase} (mine : Mine db hash phase.inHand)
    (other : ∀ b batchIndex chunk rest, phase ≠ .binding b batchIndex chunk rest) :
    OwnPhase db hash phase where
  inHand := mine
  batch b batchIndex chunk rest is := absurd is (other b batchIndex chunk rest)

theorem ownPhase_resolveBatches {db : Db} {hash : Bytes32} {stuck : List StuckBatch}
    (mine : Mine db hash (stuck.flatMap (·.tickets))) : OwnPhase db hash (resolveBatches stuck) := by
  refine .of_mine (by rw [inHand_resolveBatches]; exact mine) fun b batchIndex chunk rest is => ?_
  have owns := owns_resolveBatches { hash := hash, amountUsdc := 0, tickets := [] } 0 stuck
  rw [is] at owns
  cases owns

theorem ownPhase_submitChunks {db : Db} {hash : Bytes32} {batchIndex : Nat}
    {rest : List (List ChunkTicket)} (mine : Mine db hash rest.flatten) :
    OwnPhase db hash (submitChunks batchIndex rest) := by
  refine .of_mine (by rw [inHand_submitChunks]; exact mine) fun b batchIndex' chunk rest' is => ?_
  cases rest <;> cases is

/-- The stuck batches of an order have tickets of the order. -/
theorem Owned.mine_of_stuck (h : Owned s) {hash : Bytes32} {stuck : List StuckBatch}
    (read : returnedStuck s.db hash stuck = true) : Mine s.db hash (stuck.flatMap (·.tickets)) := by
  rw [returnedStuck, Bool.and_eq_true, List.all_eq_true] at read
  obtain ⟨list, each⟩ := read
  intro c hc
  obtain ⟨batch, hbatch, hc⟩ := List.mem_flatMap.1 hc
  have listed : (batch.id, batch.txHash) ∈ stuck.map fun b => (b.id, b.txHash) :=
    List.mem_map_of_mem hbatch
  obtain ⟨r, hr, same⟩ := List.mem_map.1 ((List.isPerm_iff.1 list).mem_iff.1 listed)
  obtain ⟨hr, is⟩ := List.mem_filter.1 hr
  rw [Bool.and_eq_true, beq_iff_eq] at is
  have id : r.id = batch.id := (Prod.mk.inj same).1
  have key : (batch.id, hash) ∈ batchKeys s.db := List.mem_map.2 ⟨r, hr, by rw [id, is.1]⟩
  refine mine_of_returned (each batch hbatch) (fun t ht bound => ?_) c hc
  have key' := h.bound t ht batch.id (beq_iff_eq.1 bound)
  exact (Prod.mk.inj (List.inj_on_of_nodup_map h.batchIds key' key rfl)).2

theorem Owned.phaseMove (h : Owned s) {order : OrderRead} {round : Nat} {phase : Phase}
    (own : OwnPhase s.db order.hash phase)
    (move : PhaseMove keccak256 s order round phase call s' p') (stays : Stays s.db s'.db)
    {order' : OrderRead} {round' : Nat} {phase' : Phase} (is : p' = .relaying order' round' phase') :
    OwnPhase s'.db order'.hash phase' := by
  have mine := own.inHand.stays stays
  cases move with
  | findStuck read =>
    cases is
    exact ownPhase_resolveBatches (h.mine_of_stuck read)
  | timeout | mined | reverted | alreadyDone | refused | missing | recovered | bind | submit | record =>
    cases is
    exact .of_mine mine fun _ _ _ _ is => by cases is
  | confirm =>
    rename_i b tickets txHash ticketIds loop
    cases is
    cases loop with
    | stuck rest => exact ownPhase_resolveBatches mine.right
    | fresh batchIndex rest => exact ownPhase_submitChunks mine.right
  | release =>
    rename_i b tickets reason loop
    cases loop with
    | stuck rest =>
      cases is
      exact ownPhase_resolveBatches mine.right
    | fresh batchIndex rest => cases is
  | noPending | collect =>
    cases is
    exact .of_mine mine fun _ _ _ _ is => by cases is
  | findPending read =>
    cases is
    refine .of_mine (mine_of_returned read fun t _ is => ?_) fun _ _ _ _ is => by cases is
    rw [pending, Bool.and_eq_true, Bool.and_eq_true, beq_iff_eq] at is
    exact is.1.1
  | count =>
    cases is
    refine ownPhase_submitChunks fun c hc => ?_
    obtain ⟨chunk, hchunk, hc⟩ := List.mem_flatten.1 hc
    exact mine c (mem_of_chunks hchunk hc)
  | create fresh =>
    rename_i b batchIndex chunk rest
    cases is
    refine ⟨mine, fun _ _ _ _ is => ?_⟩
    cases is
    rw [batchKeys, createBatch, List.map_append]
    exact List.mem_append_right _ List.mem_cons_self
  | succeed => cases is

theorem Owned.procStep (h : Owned s) (hp : p ∈ s.procs)
    (hstep : procStep keccak256 s p call = some (s', p')) {order : OrderRead} {round : Nat}
    {phase : Phase} (is : p' = .relaying order round phase) : OwnPhase s'.db order.hash phase := by
  cases procMove hstep with
  | leave leaving =>
    rw [is] at leaving
    cases leaving
  | throw =>
    unfold Proc.thrown at is
    split at is <;> cases is
  | phase move => exact h.phaseMove (h.jobs _ _ _ hp) move (h.stays hstep) is
  | lock =>
    cases is
    exact .of_mine (fun c hc => absurd hc List.not_mem_nil) fun _ _ _ _ is => by cases is
  | _ => cases is

/-- A ticket is bound to a batch of its order. -/
theorem Owned.bound_procStep (h : Owned s) (hp : p ∈ s.procs)
    (hstep : Relay.procStep keccak256 s p call = some (s', p')) {t' : Ticket} (ht' : t' ∈ s'.db.tickets)
    {b : Uuid} (bound : t'.relayBatchId = some b) : (b, t'.orderHash) ∈ batchKeys s'.db := by
  obtain ⟨t, ht, row⟩ := (procStep_effect hstep).rows t' ht'
  refine (h.stays hstep).keys _ ?_
  rw [row.order]
  rcases row.bind b bound with old | ⟨chunk, binds, mem⟩
  · exact h.bound t ht b old
  · unfold Proc.binds at binds
    split at binds
    · cases binds
      have own := h.jobs _ _ _ hp
      obtain ⟨c, hc, id⟩ := List.mem_map.1 mem
      have mine := own.inHand c (List.mem_append_left _ hc)
      rw [order_of_mine h.ticketIds mine ht id.symm]
      exact own.batch _ _ _ _ rfl
    · cases binds

theorem Owned.procCall (h : Owned s) {i : Nat} (hi : s.procs[i]? = some p)
    (hstep : Relay.procStep keccak256 s p call = some (s', p')) (lost : Bool) :
    Owned { s' with procs := s.procs.set i (if lost then p.thrown else p') } := by
  have hp := List.mem_of_getElem? hi
  have stays := h.stays hstep
  constructor
  case ticketIds =>
    rw [ids_of_columns (procStep_effect hstep).columns]
    exact h.ticketIds
  case batchIds =>
    rcases batchKeys_procStep hstep with same | ⟨b, hash, fresh, more⟩
    · rw [same]
      exact h.batchIds
    · rw [more, List.map_append]
      exact List.nodup_append'.2 ⟨h.batchIds, List.nodup_singleton _,
        List.disjoint_singleton.2 fresh⟩
  case bound => exact fun t ht b hb => h.bound_procStep hp hstep ht hb
  case jobs =>
    intro order round phase mem
    rcases List.mem_or_eq_of_mem_set mem with old | new
    · exact (h.jobs _ _ _ old).stays stays
    · cases lost with
      | true =>
        have thrown : p.thrown = .relaying order round phase := new.symm
        unfold Proc.thrown at thrown
        split at thrown <;> cases thrown
      | false => exact h.procStep hp hstep new.symm

theorem Stays.of_same {db db' : Db} (tickets : db'.tickets = db.tickets)
    (batches : db'.relayBatches = db.relayBatches) : Stays db db' where
  mine hash id := by rw [rowsOf, rowsOf, tickets]
  keys key hkey := by
    rw [batchKeys, batches]
    exact hkey

theorem Owned.stays_step (h : Owned s) {a : Action} (hs : step keccak256 s a = some s') :
    Stays s.db s'.db := by
  cases stepMove hs with
  | call here move =>
    have stays := h.stays move
    exact ⟨stays.mine, stays.keys⟩
  | _ => exact .of_same rfl rfl

/-- Nothing but processes that are no jobs at work. -/
theorem Owned.keep (h : Owned s) (tickets : s'.db.tickets = s.db.tickets)
    (batches : s'.db.relayBatches = s.db.relayBatches)
    (procs : ∀ order round phase, .relaying order round phase ∈ s'.procs →
      .relaying order round phase ∈ s.procs) : Owned s' := by
  have keys : batchKeys s'.db = batchKeys s.db := by rw [batchKeys, batches, batchKeys]
  exact ⟨tickets ▸ h.ticketIds, keys ▸ h.batchIds, fun t ht b hb => keys ▸ h.bound t (tickets ▸ ht) b hb,
    fun order round phase mem => (h.jobs _ _ _ (procs _ _ _ mem)).stays (.of_same tickets batches)⟩

theorem Owned.step (h : Owned s) {a : Action} (hs : step keccak256 s a = some s') : Owned s' := by
  have old : ∀ {p : Proc}, (∀ order round phase, p ≠ .relaying order round phase) →
      ∀ order round phase, .relaying order round phase ∈ s.procs ++ [p] →
        .relaying order round phase ∈ s.procs := by
    intro p other order round phase mem
    exact (List.mem_append.1 mem).resolve_right fun new =>
      other order round phase (List.mem_singleton.1 new).symm
  cases stepMove hs with
  | job | confirm | reset => exact h.keep rfl rfl (old fun _ _ _ is => by cases is)
  | call here move => exact h.procCall here move _
  | requeue | mine | revert | rollover => exact h.keep rfl rfl fun _ _ _ mem => mem

theorem Owned.initial (hi : Initial keccak256 s) : Owned s where
  ticketIds := hi.ticketIds
  batchIds := by
    rw [batchKeys, hi.noBatches]
    exact List.nodup_nil
  bound t ht b hb := by
    rw [hi.unbound t ht] at hb
    cases hb
  jobs order round phase mem := by
    rw [hi.noProcs] at mem
    exact absurd mem List.not_mem_nil

theorem owned_of_reachable (h : (machine keccak256).Reachable s) : Owned s :=
  h.invariant (I := Owned) (fun _ hi => .initial hi) fun _ _ _ inv _ hs => inv.step hs

end Calls

end LordsPot.Relay
