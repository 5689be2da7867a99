import LordsPot.Relay.Cover

/-!
# SUCCESS means minted

The worker writes SUCCESS when no ticket of the order is pending, and a ticket is pending only while
it is in no batch. A confirmed batch is never looked at again, so the ids that its receipt yields
have to be enough for its tickets. Here a receipt or an event yields any list of ids.
-/

namespace LordsPot.Relay

open Transition

/-! ## Any ids -/

/-- A step of the relay, or: the receipt or event that process `i` has read yields these ids. -/
inductive Parse where
  | relay (action : Action)
  | yields (i : Nat) (ticketIds : List NftId)
  deriving Repr, DecidableEq

/-- The process with what `parseTicketIdsFromReceipt` or `findExistingFulfillment` has returned. -/
def Proc.parsed (ticketIds : List NftId) : Proc → Option Proc
  | .relaying order round (.confirming b tickets txHash _ loop) =>
      some (.relaying order round (.confirming b tickets txHash ticketIds loop))
  | .readingRound order txHash _ => some (.readingRound order txHash ticketIds)
  | _ => none

/-- The order a job or the confirmer works on. -/
def Proc.hash? : Proc → Option Bytes32
  | .reading hash | .deferring hash | .underfunded hash _ _ | .stranding hash | .pausing hash _
  | .failing hash _ _ | .confirmerReading hash | .vanishing hash | .bouncing hash _
  | .rejecting hash _ => some hash
  | .gating order | .funding order _ | .locking order _ | .relaying order _ _ | .catching order
  | .findingOrder order | .readingRound order _ _ | .finalizing order _ _ _ | .submitted order _
  | .confirmerClassifying order _ | .confirmerFinding order => some order.hash
  | .resetting _ | .ended => none

section Order

variable {keccak256 : String → Bytes32} {s s' : State} {p p' : Proc} {call : Call}

theorem hash_of_phaseMove {order : OrderRead} {round : Nat} {phase : Phase}
    (move : PhaseMove keccak256 s order round phase call s' p') :
    p'.hash? = none ∨ p'.hash? = some order.hash := by
  cases move with
  | release =>
    rename_i loop
    cases loop <;> exact .inr rfl
  | succeed => exact .inl rfl
  | _ => exact .inr rfl

theorem hash_of_thrown (p : Proc) : p.thrown.hash? = none ∨ p.thrown.hash? = p.hash? := by
  unfold Proc.thrown
  split
  · exact .inr rfl
  · exact .inl rfl

/-- A process stays at its order. -/
theorem hash_of_procStep (h : procStep keccak256 s p call = some (s', p')) :
    p'.hash? = none ∨ p'.hash? = p.hash? := by
  unfold procStep at h
  split at h
  case h_1 | h_15 =>
    split at h
    · cases h
      exact .inl rfl
    · split at h
      · cases h
        split
        · exact .inr rfl
        · exact .inl rfl
      · cases h
  case h_2 order round deferred =>
    cases h
    cases deferred <;> exact .inr rfl
  case h_4 =>
    cases h
    split
    · exact .inr rfl
    · exact .inr rfl
  case h_6 =>
    cases h
    split
    · exact .inl rfl
    · exact .inr rfl
  case h_7 order cls | h_23 order txHash cls =>
    cases h
    cases cls <;> exact .inr rfl
  case h_9 | h_19 | h_25 =>
    obtain ⟨ticketIds, found, same⟩ := Option.map_eq_some_iff.1 h
    cases same
    exact .inr rfl
  case h_20 =>
    split at h <;> cases h
    exact .inr rfl
  case h_29 =>
    cases h
    exact hash_of_thrown _
  case h_31 => exact hash_of_phaseMove (phaseMove h)
  case h_32 => cases h
  all_goals
    cases h
    first
    | exact .inl rfl
    | exact .inr rfl

end Order

section Machine

variable (keccak256 : String → Bytes32)

def parseStep (s : State) : Parse → Option State
  | .relay action => step keccak256 s action
  | .yields i ticketIds => do
      let p ← s.procs[i]?
      let p' ← p.parsed ticketIds
      pure { s with procs := s.procs.set i p' }

/-- Orders that have not been relayed yet, each with as many tickets as it counts. -/
structure Ingested (s : State) : Prop extends Initial keccak256 s where
  counted : ∀ o ∈ s.db.relayOrders, o.ticketCount = (rowsOf s.db o.hash).length

/-- The relay, when receipts and events may yield any ids. -/
def parsing : Machine State Parse := ⟨Ingested keccak256, parseStep keccak256⟩

end Machine

/-- A job or the confirmer turns to an order only when no other one is at it. -/
def oneAtATime (s : State) : Parse → Bool
  | .relay (.job hash) | .relay (.confirm hash) =>
      s.procs.all fun p => p.hash? != some hash
  | _ => true

/-- The ids that are written are enough for the chunk they are for; those of a whole order are as
many as its tickets. -/
def enoughIds (s : State) : Parse → Bool
  | .relay (.call i .write _) => match s.procs[i]? with
    | some (.relaying _ _ (.confirming _ tickets _ ticketIds _)) =>
        tickets.length ≤ ticketIds.length
    | some (.finalizing order _ ticketIds _) =>
        !finalizable s.db order.hash || order.tickets.length == ticketIds.length
    | _ => true
  | _ => true

/-- Every ticket of a SUCCESS order has an NFT id, and the order has these ids, one for each ticket
it counts. -/
def Minted (db : Db) : Prop :=
  ∀ o ∈ db.relayOrders, o.status = .SUCCESS →
    (∀ t ∈ rowsOf db o.hash, t.megapotNftId ≠ none) ∧
    o.megapotTicketIds.Perm ((rowsOf db o.hash).filterMap (·.megapotNftId)) ∧
    o.megapotTicketIds.length = o.ticketCount

/-! ## One order's part of the tables -/

structure Tables (db : Db) : Prop where
  ticketIds : (db.tickets.map (·.id)).Nodup
  orderHashes : (db.relayOrders.map (·.hash)).Nodup
  batchIds : (db.relayBatches.map (·.id)).Nodup

section Part

variable {db : Db} {h h' : Bytes32}

theorem rowsOf_updateMany {q : Ticket → Bool} {f : Ticket → Ticket}
    (keep : ∀ t, (f t).orderHash = t.orderHash) (rows : List Ticket) :
    (Table.updateMany q f rows).filter (ofOrder h) = Table.updateMany q f (rows.filter (ofOrder h)) := by
  refine Table.filter_updateMany fun t _ => ?_
  split
  · rw [ofOrder, ofOrder, keep]
  · rfl

theorem rowsOf_stamp (txHash : Option TxHash) (pairs : List (ChunkTicket × NftId))
    (rows : List Ticket) :
    (stamp txHash pairs rows).filter (ofOrder h) = stamp txHash pairs (rows.filter (ofOrder h)) := by
  induction pairs generalizing rows with
  | nil => rfl
  | cons pair pairs ih =>
    have first : (stamp txHash [pair] rows).filter (ofOrder h) =
        stamp txHash [pair] (rows.filter (ofOrder h)) := by
      simp only [stamp, List.foldl_cons, List.foldl_nil]
      refine rowsOf_updateMany ?_ rows
      exact fun _ => rfl
    rw [stamp_cons txHash pair pairs rows, ih, first]
    rfl

theorem batchesOf_updateMany {q : RelayBatch → Bool} {f : RelayBatch → RelayBatch}
    (keep : ∀ b, (f b).orderHash = b.orderHash) (batches : List RelayBatch) :
    (Table.updateMany q f batches).filter (·.orderHash == h) =
      Table.updateMany q f (batches.filter (·.orderHash == h)) := by
  refine Table.filter_updateMany fun b _ => ?_
  split
  · rw [keep]
  · rfl

theorem updateMany_of_false {α : Type} {q : α → Bool} {f : α → α} {rows : List α}
    (none? : ∀ r ∈ rows, q r = false) : Table.updateMany q f rows = rows := by
  rw [Table.updateMany]
  refine (List.map_congr_left fun r hr => ?_).trans (List.map_id _)
  rw [none? r hr]
  rfl

theorem stamp_of_not_mem {txHash : Option TxHash} {pairs : List (ChunkTicket × NftId)}
    {rows : List Ticket} (out : ∀ pair ∈ pairs, ∀ t ∈ rows, t.id ≠ pair.1.id) :
    stamp txHash pairs rows = rows := by
  induction pairs with
  | nil => rfl
  | cons pair pairs ih =>
    have first : stamp txHash [pair] rows = rows :=
      updateMany_of_false fun t ht => by simpa using out pair List.mem_cons_self t ht
    rw [stamp_cons, first]
    exact ih fun q hq => out q (List.mem_cons_of_mem _ hq)

theorem mem_rowsOf {t : Ticket} : t ∈ rowsOf db h ↔ t ∈ db.tickets ∧ t.orderHash = h := by
  simp [rowsOf, ofOrder]

theorem mem_batchesOf {b : RelayBatch} :
    b ∈ batchesOf db h ↔ b ∈ db.relayBatches ∧ b.orderHash = h := by
  simp [batchesOf]

/-- A row of another order has none of this one's ids. -/
theorem Tables.rows_apart (tables : Tables db) (ne : h' ≠ h) {id : Uuid}
    (mine : id ∈ (rowsOf db h).map (·.id)) {t : Ticket} (ht : t ∈ rowsOf db h') : t.id ≠ id := by
  rintro rfl
  obtain ⟨u, hu, same⟩ := List.mem_map.1 mine
  obtain rfl := List.inj_on_of_nodup_map tables.ticketIds (mem_rowsOf.1 hu).1 (mem_rowsOf.1 ht).1 same
  exact ne ((mem_rowsOf.1 ht).2.symm.trans (mem_rowsOf.1 hu).2)

theorem Tables.batches_apart (tables : Tables db) (ne : h' ≠ h) {id : Uuid}
    (mine : id ∈ (batchesOf db h).map (·.id)) {b : RelayBatch} (hb : b ∈ batchesOf db h') :
    b.id ≠ id := by
  rintro rfl
  obtain ⟨u, hu, same⟩ := List.mem_map.1 mine
  obtain rfl :=
    List.inj_on_of_nodup_map tables.batchIds (mem_batchesOf.1 hu).1 (mem_batchesOf.1 hb).1 same
  exact ne ((mem_batchesOf.1 hb).2.symm.trans (mem_batchesOf.1 hu).2)

end Part

/-! ## What a call leaves -/

/-- The tables after a call of a process of `hash?`, whose order's part only it may have changed. -/
structure Written (hash? : Option Bytes32) (db db' : Db) : Prop where
  tables : Tables db'
  ids : ∀ h, (rowsOf db' h).map (·.id) = (rowsOf db h).map (·.id)
  carried : ∀ h, Carried (rowsOf db' h) (batchesOf db' h)
  minted : Minted db'
  counts : db'.relayOrders.map (fun o => (o.hash, o.ticketCount)) =
    db.relayOrders.map fun o => (o.hash, o.ticketCount)
  elsewhere : ∀ h, hash? ≠ some h → rowsOf db' h = rowsOf db h ∧ batchesOf db' h = batchesOf db h ∧
    ∀ o' ∈ db'.relayOrders, o'.hash = h → o'.status = .SUCCESS →
      ∃ o ∈ db.relayOrders, o.hash = h ∧ o.status = .SUCCESS

/-- What holds of the tables, whichever process is next. -/
structure Sound (db : Db) : Prop where
  tables : Tables db
  carried : ∀ h, Carried (rowsOf db h) (batchesOf db h)
  minted : Minted db
  counted : ∀ o ∈ db.relayOrders, o.ticketCount = (rowsOf db o.hash).length

theorem Written.sound {hash? : Option Bytes32} {db db' : Db} (w : Written hash? db db')
    (sound : Sound db) : Sound db' where
  tables := w.tables
  carried := w.carried
  minted := w.minted
  counted o' ho' := by
    have mem : (o'.hash, o'.ticketCount) ∈ db.relayOrders.map fun o => (o.hash, o.ticketCount) :=
      w.counts ▸ List.mem_map_of_mem ho'
    obtain ⟨o, ho, same⟩ := List.mem_map.1 mem
    obtain ⟨hash, count⟩ := Prod.mk.inj same
    have length := congrArg List.length (w.ids o.hash)
    rw [List.length_map, List.length_map] at length
    rw [← hash, ← count, length]
    exact sound.counted o ho

section Calls

variable {db : Db} {hash? : Option Bytes32}

theorem Written.refl (sound : Sound db) : Written hash? db db where
  tables := sound.tables
  ids _ := rfl
  carried := sound.carried
  minted := sound.minted
  counts := rfl
  elsewhere _ _ := ⟨rfl, rfl, fun o ho hash status => ⟨o, ho, hash, status⟩⟩

/-- A change of orders to another status than SUCCESS. -/
theorem Written.orders (sound : Sound db) {q : RelayOrder → Bool} {f : RelayOrder → RelayOrder}
    (keep : ∀ o, (f o).hash = o.hash ∧ (f o).ticketCount = o.ticketCount)
    (open? : ∀ o, (f o).status ≠ .SUCCESS) :
    Written hash? db { db with relayOrders := Table.updateMany q f db.relayOrders } := by
  have old : ∀ o' ∈ Table.updateMany q f db.relayOrders, o'.status = .SUCCESS → o' ∈ db.relayOrders := by
    intro o' ho' success
    obtain ⟨o, ho, rfl⟩ := Table.mem_updateMany.1 ho'
    split at success
    · exact absurd success (open? o)
    · rename_i miss
      rw [if_neg miss]
      exact ho
  constructor
  case tables =>
    refine ⟨sound.tables.ticketIds, ?_, sound.tables.batchIds⟩
    have hashes : (Table.updateMany q f db.relayOrders).map (·.hash) = db.relayOrders.map (·.hash) :=
      Table.map_updateMany _ fun o _ _ => (keep o).1
    rw [hashes]
    exact sound.tables.orderHashes
  case ids => exact fun _ => rfl
  case carried => exact sound.carried
  case minted => exact fun o ho success => sound.minted o (old o ho success) success
  case counts =>
    exact Table.map_updateMany _ fun o _ _ => Prod.ext_iff.2 (keep o)
  case elsewhere =>
    exact fun h _ => ⟨rfl, rfl, fun o ho hash success => ⟨o, old o ho success, hash, success⟩⟩

/-- A change of one order's tickets and batches, which the order's job makes before SUCCESS. -/
theorem Written.part (sound : Sound db) {hash : Bytes32} {db' : Db}
    (notDone : ∀ o ∈ db.relayOrders, o.hash = hash → o.status ≠ .SUCCESS)
    (orders : db'.relayOrders = db.relayOrders)
    (ticketIds : db'.tickets.map (·.id) = db.tickets.map (·.id))
    (batchIds : (db'.relayBatches.map (·.id)).Nodup)
    (ids : (rowsOf db' hash).map (·.id) = (rowsOf db hash).map (·.id))
    (carried : Carried (rowsOf db' hash) (batchesOf db' hash))
    (elsewhere : ∀ h, h ≠ hash → rowsOf db' h = rowsOf db h ∧ batchesOf db' h = batchesOf db h) :
    Written (some hash) db db' := by
  constructor
  case tables => exact ⟨ticketIds ▸ sound.tables.ticketIds, orders ▸ sound.tables.orderHashes, batchIds⟩
  case ids =>
    intro h
    by_cases same : h = hash
    · rw [same, ids]
    · rw [(elsewhere h same).1]
  case carried =>
    intro h
    by_cases same : h = hash
    · rw [same]
      exact carried
    · rw [(elsewhere h same).1, (elsewhere h same).2]
      exact sound.carried h
  case minted =>
    intro o ho success
    rw [orders] at ho
    have other : o.hash ≠ hash := fun same => notDone o ho same success
    rw [(elsewhere o.hash other).1]
    exact sound.minted o ho success
  case counts => rw [orders]
  case elsewhere =>
    intro h ne
    have other : h ≠ hash := fun same => ne (congrArg some same.symm)
    exact ⟨(elsewhere h other).1, (elsewhere h other).2, fun o ho hash success =>
      ⟨o, orders ▸ ho, hash, success⟩⟩

end Calls

/-! ## One order's part after a write -/

section Writes

variable {db : Db} {hash h : Bytes32} {b : Uuid} {tickets : List ChunkTicket} {txHash : TxHash}
  {ticketIds : List NftId} {reason : String}

theorem rowsOf_confirm : rowsOf (finalizeChunkSuccess db b tickets txHash ticketIds) h =
    stamp (some txHash) (tickets.zip ticketIds) (rowsOf db h) := rowsOf_stamp ..

theorem batchesOf_confirm : batchesOf (finalizeChunkSuccess db b tickets txHash ticketIds) h =
    Table.updateMany (·.id == b) (fun r => { r with status := .CONFIRMED }) (batchesOf db h) := by
  refine batchesOf_updateMany ?_ _
  exact fun _ => rfl

theorem rowsOf_release :
    rowsOf (releaseChunk db b tickets reason) h = unbound tickets (rowsOf db h) := by
  refine rowsOf_updateMany ?_ _
  exact fun _ => rfl

theorem batchesOf_release : batchesOf (releaseChunk db b tickets reason) h =
    Table.updateMany (·.id == b)
      (fun r => { r with status := .FAILED, error := some (slice2000 reason) }) (batchesOf db h) := by
  refine batchesOf_updateMany ?_ _
  exact fun _ => rfl

theorem rowsOf_bind : rowsOf (bindChunk db b tickets) h = boundTo b tickets (rowsOf db h) := by
  refine rowsOf_updateMany ?_ _
  exact fun _ => rfl

theorem batchesOf_record : batchesOf (setBatchTxHash db b txHash) h =
    Table.updateMany (·.id == b) (fun r => { r with txHash := some txHash }) (batchesOf db h) := by
  refine batchesOf_updateMany ?_ _
  exact fun _ => rfl

theorem batchIds_keep {f : RelayBatch → RelayBatch} (keep : ∀ r, (f r).id = r.id)
    {batches : List RelayBatch} (distinct : (batches.map (·.id)).Nodup) :
    ((Table.updateMany (·.id == b) f batches).map (·.id)).Nodup := by
  rw [batchIds_updateMany keep]
  exact distinct

theorem Loop.Covers.holds {rows : List Ticket} {batches : List RelayBatch} {loop : Loop}
    (covers : loop.Covers rows batches b tickets) : Holds rows batches b tickets := by
  cases loop with
  | stuck rest => exact StuckCovers.holds covers _ List.mem_cons_self
  | fresh batchIndex rest => exact covers.1

/-- None of the tickets in hand is a row of another order. -/
theorem unlisted (sound : Sound db) (mine : ∀ c ∈ tickets, c.id ∈ (rowsOf db hash).map (·.id))
    (ne : h ≠ hash) : ∀ t ∈ rowsOf db h, (tickets.map (·.id)).contains t.id = false := by
  intro t ht
  rw [Bool.eq_false_iff]
  intro listed
  obtain ⟨c, hc, same⟩ := List.mem_map.1 (List.contains_iff_mem.1 listed)
  exact sound.tables.rows_apart ne (mine c hc) ht same.symm

/-- Nor is its batch one of another order. -/
theorem unmatched (sound : Sound db) (mine : b ∈ (batchesOf db hash).map (·.id)) (ne : h ≠ hash) :
    ∀ r ∈ batchesOf db h, (r.id == b) = false := by
  intro r hr
  simpa using sound.tables.batches_apart ne mine hr

section Part

variable (sound : Sound db) (notDone : ∀ o ∈ db.relayOrders, o.hash = hash → o.status ≠ .SUCCESS)
include sound notDone

theorem Written.confirm (holds : Holds (rowsOf db hash) (batchesOf db hash) b tickets)
    (enough : tickets.length ≤ ticketIds.length) :
    Written (some hash) db (finalizeChunkSuccess db b tickets txHash ticketIds) := by
  refine .part sound notDone rfl (map_id_stamp ..) ?_ ?_ ?_ fun h ne => ⟨?_, ?_⟩
  · refine batchIds_keep ?_ sound.tables.batchIds
    exact fun _ => rfl
  · rw [rowsOf_confirm, map_id_stamp]
  · rw [rowsOf_confirm, batchesOf_confirm]
    exact (sound.carried hash).confirm enough holds
  · rw [rowsOf_confirm]
    refine stamp_of_not_mem fun pair hpair t ht => ?_
    exact sound.tables.rows_apart ne (holds.mine pair.1 (List.of_mem_zip hpair).1) ht
  · rw [batchesOf_confirm]
    exact updateMany_of_false (unmatched sound holds.batch ne)

theorem Written.release (holds : Holds (rowsOf db hash) (batchesOf db hash) b tickets) :
    Written (some hash) db (releaseChunk db b tickets reason) := by
  refine .part sound notDone rfl map_id_unbound ?_ ?_ ?_ fun h ne => ⟨?_, ?_⟩
  · refine batchIds_keep ?_ sound.tables.batchIds
    exact fun _ => rfl
  · rw [rowsOf_release, map_id_unbound]
  · rw [rowsOf_release, batchesOf_release]
    exact (sound.carried hash).release holds
  · rw [rowsOf_release]
    exact updateMany_of_false (unlisted sound holds.mine ne)
  · rw [batchesOf_release]
    exact updateMany_of_false (unmatched sound holds.batch ne)

theorem Written.record (holds : Holds (rowsOf db hash) (batchesOf db hash) b tickets) :
    Written (some hash) db (setBatchTxHash db b txHash) := by
  refine .part sound notDone rfl rfl ?_ rfl ?_ fun h ne => ⟨rfl, ?_⟩
  · refine batchIds_keep ?_ sound.tables.batchIds
    exact fun _ => rfl
  · rw [batchesOf_record]
    intro t ht x bound
    obtain ⟨r, hr, id, submitted⟩ := sound.carried hash t ht x bound
    refine ⟨_, Table.mem_updateMany.2 ⟨r, hr, rfl⟩, ?_, fun unstamped => ?_⟩
    · split
      · exact id
      · exact id
    · split
      · exact submitted unstamped
      · exact submitted unstamped
  · rw [batchesOf_record]
    exact updateMany_of_false (unmatched sound holds.batch ne)

theorem Written.create (fresh : db.relayBatches.all (·.id != b) = true) (batchIndex : Nat) :
    Written (some hash) db (createBatch db b hash batchIndex) := by
  refine .part sound notDone rfl rfl ?_ rfl ?_ fun h ne => ⟨rfl, ?_⟩
  · refine Table.nodup_insert sound.tables.batchIds fun mem => ?_
    obtain ⟨r, hr, same⟩ := List.mem_map.1 mem
    simpa [same] using List.all_eq_true.1 fresh r hr
  · intro t ht x bound
    obtain ⟨r, hr, id, submitted⟩ := sound.carried hash t ht x bound
    obtain ⟨mem, own⟩ := mem_batchesOf.1 hr
    exact ⟨r, mem_batchesOf.2 ⟨List.mem_append_left _ mem, own⟩, id, submitted⟩
  · rw [createBatch, batchesOf, List.filter_append, batchesOf]
    simp [ne.symm]

theorem Written.bind (created : ∃ r ∈ batchesOf db hash, r.id = b ∧ r.status = .SUBMITTED)
    (mine : ∀ c ∈ tickets, c.id ∈ (rowsOf db hash).map (·.id)) :
    Written (some hash) db (bindChunk db b tickets) := by
  refine .part sound notDone rfl map_id_boundTo sound.tables.batchIds ?_ ?_ fun h ne => ⟨?_, rfl⟩
  · rw [rowsOf_bind, map_id_boundTo]
  · rw [rowsOf_bind]
    exact (sound.carried hash).bind created
  · rw [rowsOf_bind]
    exact updateMany_of_false (unlisted sound mine ne)

end Part

theorem filterMap_length {rows : List Ticket} (stamped : ∀ t ∈ rows, t.megapotNftId ≠ none) :
    (rows.filterMap (·.megapotNftId)).length = rows.length := by
  induction rows with
  | nil => rfl
  | cons t rows ih =>
    obtain ⟨n, hn⟩ := Option.ne_none_iff_exists'.1 (stamped t List.mem_cons_self)
    rw [List.filterMap_cons_some hn, List.length_cons, List.length_cons,
      ih fun u hu => stamped u (List.mem_cons_of_mem _ hu)]

/-- A write of SUCCESS with the ids of the order's tickets. -/
theorem Written.succeed (sound : Sound db) {q : RelayOrder → Bool} {f : RelayOrder → RelayOrder}
    {tickets' : List Ticket} (keep : ∀ o, (f o).hash = o.hash ∧ (f o).ticketCount = o.ticketCount)
    (own : ∀ o ∈ db.relayOrders, q o = true ↔ o.hash = hash) (ids? : ∀ o, (f o).megapotTicketIds = ticketIds)
    (columns : tickets'.map (·.id) = db.tickets.map (·.id))
    (carried : Carried (tickets'.filter (ofOrder hash)) (batchesOf db hash))
    (rowIds : (tickets'.filter (ofOrder hash)).map (·.id) = (rowsOf db hash).map (·.id))
    (elsewhere : ∀ h, h ≠ hash → tickets'.filter (ofOrder h) = rowsOf db h)
    (stamped : ∀ t ∈ tickets'.filter (ofOrder hash), t.megapotNftId ≠ none)
    (perm : ticketIds.Perm ((tickets'.filter (ofOrder hash)).filterMap (·.megapotNftId))) :
    Written (some hash) db
      { db with relayOrders := Table.updateMany q f db.relayOrders, tickets := tickets' } := by
  have ids : ∀ h, (tickets'.filter (ofOrder h)).map (·.id) = (rowsOf db h).map (·.id) := by
    intro h
    by_cases same : h = hash
    · rw [same, rowIds]
    · rw [elsewhere h same]
  constructor
  case tables =>
    refine ⟨columns ▸ sound.tables.ticketIds, ?_, sound.tables.batchIds⟩
    have hashes : (Table.updateMany q f db.relayOrders).map (·.hash) = db.relayOrders.map (·.hash) :=
      Table.map_updateMany _ fun o _ _ => (keep o).1
    rw [hashes]
    exact sound.tables.orderHashes
  case ids => exact ids
  case carried =>
    intro h
    by_cases same : h = hash
    · rw [same]
      exact carried
    · change Carried (tickets'.filter (ofOrder h)) (batchesOf db h)
      rw [elsewhere h same]
      exact sound.carried h
  case minted =>
    intro o' ho' success
    obtain ⟨o, ho, rfl⟩ := Table.mem_updateMany.1 ho'
    split at success
    · rename_i hit
      have mine : (f o).hash = hash := (keep o).1.trans ((own o ho).1 hit)
      rw [if_pos hit, mine, ids?]
      refine ⟨stamped, perm, ?_⟩
      have length := congrArg List.length rowIds
      rw [List.length_map, List.length_map] at length
      rw [perm.length_eq, filterMap_length stamped, length, (keep o).2, sound.counted o ho,
        ← mine, (keep o).1]
    · rename_i miss
      rw [if_neg miss]
      have other : o.hash ≠ hash := fun same => miss ((own o ho).2 same)
      change (∀ t ∈ tickets'.filter (ofOrder o.hash), _) ∧
        List.Perm _ ((tickets'.filter (ofOrder o.hash)).filterMap _) ∧ _
      rw [elsewhere o.hash other]
      exact sound.minted o ho success
  case counts => exact Table.map_updateMany _ fun o _ _ => Prod.ext_iff.2 (keep o)
  case elsewhere =>
    intro h ne
    have other : h ≠ hash := fun same => ne (congrArg some same.symm)
    refine ⟨elsewhere h other, rfl, fun o' ho' at_ success => ?_⟩
    obtain ⟨o, ho, rfl⟩ := Table.mem_updateMany.1 ho'
    split at at_
    · rename_i hit
      exact absurd (at_.symm.trans ((keep o).1.trans ((own o ho).1 hit))) other
    · rename_i miss
      rw [if_neg miss] at success
      exact ⟨o, ho, at_, success⟩

/-- The id a row has after a stamp is that of its pair. -/
theorem stamp_eq {txHash : Option TxHash} {pairs : List (ChunkTicket × NftId)} {rows : List Ticket}
    (distinct : (pairs.map (·.1.id)).Nodup) {pair : ChunkTicket × NftId} (hpair : pair ∈ pairs)
    {t' : Ticket} (ht' : t' ∈ stamp txHash pairs rows) (same : t'.id = pair.1.id) :
    t'.megapotNftId = some pair.2 := by
  induction pairs generalizing rows with
  | nil => cases hpair
  | cons first pairs ih =>
    obtain ⟨new, distinct⟩ := List.nodup_cons.1 distinct
    rw [stamp_cons] at ht'
    rcases List.mem_cons.1 hpair with rfl | later
    · obtain ⟨u, hu, columns, -, -, -, nft⟩ := mem_stamp ht'
      have id : u.id = pair.1.id := (congrArg ChunkTicket.id columns).symm.trans same
      rcases nft with kept | ⟨q, hq, hid, -⟩
      · obtain ⟨t, ht, rfl⟩ := Table.mem_updateMany.1 hu
        split at id
        · rename_i hit
          rw [kept, if_pos hit]
        · rename_i miss
          exact absurd (beq_iff_eq.2 id) miss
      · exact absurd (List.mem_map.2 ⟨q, hq, hid.trans id⟩) new
    · exact ih distinct later ht'

/-- Stamped with one id each, the rows have these ids. -/
theorem stamped_perm {txHash : Option TxHash} {rows : List Ticket}
    (distinct : (rows.map (·.id)).Nodup) (all : (tickets.map (·.id)).Perm (rows.map (·.id)))
    (enough : tickets.length = ticketIds.length) :
    ticketIds.Perm ((stamp txHash (tickets.zip ticketIds) rows).filterMap (·.megapotNftId)) := by
  have pairIds : (tickets.zip ticketIds).map (·.1.id) = tickets.map (·.id) :=
    ids_of_zip (Nat.le_of_eq enough)
  have pairsDistinct : ((tickets.zip ticketIds).map (·.1.id)).Nodup := by
    rw [pairIds]
    exact all.nodup_iff.2 distinct
  have rowIds := map_id_stamp txHash (tickets.zip ticketIds) rows
  have nodup : ∀ {α : Type} {xs : List α} {key : α → Uuid} {n : α → Option NftId},
      (xs.map key).Nodup → (xs.map fun x => (key x, n x)).Nodup := by
    intro α xs key n distinct
    refine .of_map Prod.fst ?_
    rw [List.map_map]
    exact distinct
  -- the same ids, and the same NFT id for each of them
  have same : ((stamp txHash (tickets.zip ticketIds) rows).map fun t => (t.id, t.megapotNftId)).Perm
      ((tickets.zip ticketIds).map fun pair => (pair.1.id, some pair.2)) := by
    refine (List.perm_ext_iff_of_nodup (nodup (rowIds ▸ distinct)) (nodup pairsDistinct)).2 ?_
    rintro ⟨id, n⟩
    constructor
    · intro mem
      obtain ⟨t', ht', eq⟩ := List.mem_map.1 mem
      have listed : t'.id ∈ (tickets.zip ticketIds).map (·.1.id) := by
        rw [pairIds]
        exact all.mem_iff.2 (rowIds ▸ List.mem_map_of_mem ht')
      obtain ⟨pair, hpair, id'⟩ := List.mem_map.1 listed
      refine List.mem_map.2 ⟨pair, hpair, ?_⟩
      rw [← eq, stamp_eq pairsDistinct hpair ht' id'.symm, id']
    · intro mem
      obtain ⟨pair, hpair, eq⟩ := List.mem_map.1 mem
      have listed : pair.1.id ∈ (stamp txHash (tickets.zip ticketIds) rows).map (·.id) := by
        rw [rowIds]
        exact all.mem_iff.1 (pairIds ▸ List.mem_map_of_mem hpair)
      obtain ⟨t', ht', id'⟩ := List.mem_map.1 listed
      refine List.mem_map.2 ⟨t', ht', ?_⟩
      rw [← eq, stamp_eq pairsDistinct hpair ht' id', id']
  have ids := same.filterMap Prod.snd
  rw [List.filterMap_map, List.filterMap_map] at ids
  have second : (tickets.zip ticketIds).filterMap (Prod.snd ∘ fun pair => (pair.1.id, some pair.2)) =
      ticketIds := by
    rw [show (Prod.snd ∘ fun pair : ChunkTicket × NftId => (pair.1.id, some pair.2)) =
      some ∘ Prod.snd from rfl, List.filterMap_eq_map, List.map_snd_zip (Nat.le_of_eq enough.symm)]
  rw [second] at ids
  exact ids.symm

/-- Rows whose ids are all among the pairs' are all stamped. -/
theorem stamped_of_all {txHash : Option TxHash} {rows : List Ticket}
    (all : (tickets.map (·.id)).Perm (rows.map (·.id))) (enough : tickets.length = ticketIds.length) :
    ∀ t ∈ stamp txHash (tickets.zip ticketIds) rows, t.megapotNftId ≠ none := by
  intro t' ht' unstamped
  obtain ⟨t, ht, -, -, -, out⟩ := unstamped_of_stamp ht' unstamped
  rw [ids_of_zip (Nat.le_of_eq enough)] at out
  exact out (all.mem_iff.2 (List.mem_map_of_mem ht))

theorem Written.finalize (sound : Sound db) {order : OrderRead} {round : Option Nat}
    (all : (order.tickets.map (·.id)).Perm ((rowsOf db order.hash).map (·.id)))
    (enough : finalizable db order.hash = true → order.tickets.length = ticketIds.length) :
    Written (some order.hash) db
      (finalizeOrderSuccess db order.hash order.tickets txHash ticketIds round) := by
  rw [finalizeOrderSuccess]
  split
  · rename_i open?
    have length := enough open?
    obtain ⟨o, ho, mine⟩ := List.any_eq_true.1 open?
    rw [Bool.and_eq_true, beq_iff_eq, List.contains_iff_mem] at mine
    have rowsEq : ∀ h, (stamp none (order.tickets.zip ticketIds) db.tickets).filter (ofOrder h) =
        stamp none (order.tickets.zip ticketIds) (rowsOf db h) := fun h => rowsOf_stamp ..
    refine .succeed sound (fun o => ⟨rfl, rfl⟩) (fun o' ho' => ?_) (fun _ => rfl) (map_id_stamp ..)
      ?_ ?_ (fun h ne => ?_) ?_ ?_
    · rw [Bool.and_eq_true, beq_iff_eq, List.contains_iff_mem]
      refine ⟨And.left, fun same => ⟨same, ?_⟩⟩
      obtain rfl := List.inj_on_of_nodup_map sound.tables.orderHashes ho ho' (mine.1.trans same.symm)
      exact mine.2
    · rw [rowsEq]
      intro t' ht' x bound
      obtain ⟨t, ht, -, batch⟩ := back_of_stamp ht'
      obtain ⟨r, hr, id, -⟩ := sound.carried order.hash t ht x (batch.trans bound)
      exact ⟨r, hr, id, fun unstamped => absurd unstamped (stamped_of_all all length t' ht')⟩
    · rw [rowsEq, map_id_stamp]
    · rw [rowsEq]
      refine stamp_of_not_mem fun pair hpair t ht => ?_
      have mem : pair.1.id ∈ order.tickets.map (·.id) :=
        List.mem_map_of_mem (List.of_mem_zip hpair).1
      exact sound.tables.rows_apart ne (all.mem_iff.1 mem) ht
    · rw [rowsEq]
      exact stamped_of_all all length
    · rw [rowsEq]
      have distinct : ((rowsOf db order.hash).map (·.id)).Nodup :=
        sound.tables.ticketIds.sublist (List.filter_sublist.map _)
      exact stamped_perm distinct all length
  · exact .refl sound

end Writes

end LordsPot.Relay
