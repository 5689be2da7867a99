import LordsPot.Relay.ChunkId
import LordsPot.Relay.Effect

/-!
# What a job still has to relay

The rows of one order and its batches, and the claim a job makes on them from phase to phase: every
ticket without an NFT id that is bound to a batch belongs to one the job has yet to resolve, and
afterwards every ticket without an NFT id is in a chunk the job has yet to confirm. The writes of a
job keep that claim as long as an id list covers the chunk it is for.
-/

namespace LordsPot.Relay

def rowsOf (db : Db) (hash : Bytes32) : List Ticket := db.tickets.filter (ofOrder hash)

def batchesOf (db : Db) (hash : Bytes32) : List RelayBatch :=
  db.relayBatches.filter (·.orderHash == hash)

/-- A bound ticket's batch is one of the order's, and in SUBMITTED while the ticket has no id. -/
def Carried (rows : List Ticket) (batches : List RelayBatch) : Prop :=
  ∀ t ∈ rows, ∀ b, t.relayBatchId = some b →
    ∃ r ∈ batches, r.id = b ∧ (t.megapotNftId = none → r.status = .SUBMITTED)

/-- These are rows of the order, with all those that are bound to the batch. -/
structure Holds (rows : List Ticket) (batches : List RelayBatch) (b : Uuid)
    (tickets : List ChunkTicket) : Prop where
  batch : b ∈ batches.map (·.id)
  mine : ∀ c ∈ tickets, c.id ∈ rows.map (·.id)
  bound : ∀ t ∈ rows, t.relayBatchId = some b → t.id ∈ tickets.map (·.id)

/-- The batches that are left hold every bound ticket without an NFT id. -/
structure StuckCovers (rows : List Ticket) (batches : List RelayBatch)
    (left : List (Uuid × List ChunkTicket)) : Prop where
  bound : ∀ t ∈ rows, t.megapotNftId = none → ∀ b, t.relayBatchId = some b → b ∈ left.map (·.1)
  holds : ∀ batch ∈ left, Holds rows batches batch.1 batch.2

/-- The chunks that are left have every ticket without an NFT id. -/
structure FreshCovers (rows : List Ticket) (left : List (List ChunkTicket)) : Prop where
  unstamped : ∀ t ∈ rows, t.megapotNftId = none → t.id ∈ left.flatten.map (·.id)
  mine : ∀ c ∈ left.flatten, c.id ∈ rows.map (·.id)

def StuckBatch.held (batch : StuckBatch) : Uuid × List ChunkTicket := (batch.id, batch.tickets)

def Loop.Covers (rows : List Ticket) (batches : List RelayBatch) (b : Uuid)
    (tickets : List ChunkTicket) : Loop → Prop
  | .stuck rest => StuckCovers rows batches ((b, tickets) :: rest.map StuckBatch.held)
  | .fresh _ rest => Holds rows batches b tickets ∧ FreshCovers rows (tickets :: rest)

def Phase.Covers (rows : List Ticket) (batches : List RelayBatch) : Phase → Prop
  | .findingStuck => True
  | .awaiting b tickets _ loop | .classifying b tickets _ loop | .findingExisting b tickets _ loop
  | .confirming b tickets _ _ loop | .releasing b tickets _ loop => loop.Covers rows batches b tickets
  | .findingPending => StuckCovers rows batches []
  | .counting tickets => FreshCovers rows [tickets]
  | .creating _ chunk rest => FreshCovers rows (chunk :: rest)
  | .binding b _ chunk rest =>
      (∃ r ∈ batches, r.id = b ∧ r.status = .SUBMITTED) ∧ (∀ t ∈ rows, t.relayBatchId ≠ some b) ∧
        FreshCovers rows (chunk :: rest)
  | .submitting b _ chunk rest | .recording b _ chunk _ rest =>
      Holds rows batches b chunk ∧ FreshCovers rows (chunk :: rest)
  | .collecting => FreshCovers rows []
  | .succeeding ticketIds =>
      FreshCovers rows [] ∧ ticketIds.Perm (rows.filterMap (·.megapotNftId))

/-! ## Rows after a write -/

section Rows

variable {rows rows' : List Ticket} {batches batches' : List RelayBatch}

theorem map_id_stamp (h : Option TxHash) (pairs : List (ChunkTicket × NftId)) (rows : List Ticket) :
    (stamp h pairs rows).map (·.id) = rows.map (·.id) := by
  have columns := congrArg (List.map ChunkTicket.id) (map_select_stamp h pairs rows)
  rwa [List.map_map, List.map_map] at columns

/-- A row that a stamp leaves without an id is in none of its pairs. -/
theorem unstamped_of_stamp {h : Option TxHash} {pairs : List (ChunkTicket × NftId)} {t' : Ticket}
    (ht' : t' ∈ stamp h pairs rows) (unstamped : t'.megapotNftId = none) :
    ∃ t ∈ rows, t.id = t'.id ∧ t.relayBatchId = t'.relayBatchId ∧ t.megapotNftId = none ∧
      t.id ∉ pairs.map (·.1.id) := by
  induction pairs generalizing rows with
  | nil => exact ⟨t', ht', rfl, rfl, unstamped, by simp⟩
  | cons pair pairs ih =>
    rw [stamp_cons] at ht'
    obtain ⟨u, hu, id, batch, none?, other⟩ := ih ht'
    obtain ⟨t, ht, rfl⟩ := Table.mem_updateMany.1 hu
    by_cases hit : t.id = pair.1.id
    · simp [hit] at none?
    · have miss : ¬ (t.id == pair.1.id) = true := by simpa using hit
      rw [if_neg miss] at id batch none? other
      exact ⟨t, ht, id, batch, none?, by simpa [hit] using other⟩

theorem ids_of_zip {tickets : List ChunkTicket} {ticketIds : List NftId}
    (enough : tickets.length ≤ ticketIds.length) :
    (tickets.zip ticketIds).map (·.1.id) = tickets.map (·.id) := by
  have first := congrArg (List.map ChunkTicket.id) (List.map_fst_zip enough)
  rwa [List.map_map] at first

/-- Rows that come from earlier ones, and are bound to `b` only if these were. -/
theorem Holds.keep {b : Uuid} {tickets : List ChunkTicket} (h : Holds rows batches b tickets)
    (ids : rows'.map (·.id) = rows.map (·.id))
    (batchIds : ∀ b ∈ batches.map (·.id), b ∈ batches'.map (·.id))
    (back : ∀ t' ∈ rows', t'.relayBatchId = some b → ∃ t ∈ rows, t.id = t'.id ∧ t.relayBatchId = some b) :
    Holds rows' batches' b tickets where
  batch := batchIds b h.batch
  mine := ids ▸ h.mine
  bound t' ht' bound := by
    obtain ⟨t, ht, id, bound⟩ := back t' ht' bound
    exact id ▸ h.bound t ht bound

theorem FreshCovers.keep {left : List (List ChunkTicket)} (h : FreshCovers rows left)
    (ids : rows'.map (·.id) = rows.map (·.id))
    (back : ∀ t' ∈ rows', t'.megapotNftId = none → ∃ t ∈ rows, t.id = t'.id ∧ t.megapotNftId = none) :
    FreshCovers rows' left where
  unstamped t' ht' unstamped := by
    obtain ⟨t, ht, id, none?⟩ := back t' ht' unstamped
    exact id ▸ h.unstamped t ht none?
  mine := ids ▸ h.mine

end Rows

/-! ## The writes of a job -/

section Writes

variable {rows : List Ticket} {batches : List RelayBatch} {b : Uuid} {tickets : List ChunkTicket}

/-- A batch keeps its id when another column changes. -/
theorem batchIds_updateMany {f : RelayBatch → RelayBatch} (keep : ∀ r, (f r).id = r.id) :
    (Table.updateMany (·.id == b) f batches).map (·.id) = batches.map (·.id) :=
  Table.map_updateMany _ fun r _ _ => keep r

/-- A batch row after a write that keeps the ids. -/
theorem exists_updateMany {f : RelayBatch → RelayBatch} (keep : ∀ r, (f r).id = r.id)
    {r : RelayBatch} (hr : r ∈ batches) :
    ∃ r' ∈ Table.updateMany (·.id == b) f batches, r'.id = r.id ∧ (r.id ≠ b → r' = r) := by
  refine ⟨_, Table.mem_updateMany.2 ⟨r, hr, rfl⟩, ?_, fun ne => if_neg (by simpa using ne)⟩
  split
  · exact keep r
  · rfl

/-- A write to the rows and to batch `b` after which no ticket without an NFT id is bound to `b`. -/
theorem Carried.resolve {rows' : List Ticket} {f : RelayBatch → RelayBatch}
    (h : Carried rows batches) (keep : ∀ r, (f r).id = r.id)
    (back : ∀ t' ∈ rows', ∀ x, t'.relayBatchId = some x → ∃ t ∈ rows, t.relayBatchId = some x)
    (left : ∀ t' ∈ rows', t'.megapotNftId = none → ∀ x, t'.relayBatchId = some x →
      x ≠ b ∧ ∃ t ∈ rows, t.relayBatchId = some x ∧ t.megapotNftId = none) :
    Carried rows' (Table.updateMany (·.id == b) f batches) := by
  intro t' ht' x bound
  by_cases unstamped : t'.megapotNftId = none
  · obtain ⟨other, t, ht, bound, none?⟩ := left t' ht' unstamped x bound
    obtain ⟨r, hr, rfl, submitted⟩ := h t ht x bound
    obtain ⟨r', hr', -, same⟩ := exists_updateMany keep hr
    obtain rfl := same other
    exact ⟨r', hr', rfl, fun _ => submitted none?⟩
  · obtain ⟨t, ht, bound⟩ := back t' ht' x bound
    obtain ⟨r, hr, rfl, -⟩ := h t ht x bound
    obtain ⟨r', hr', id, -⟩ := exists_updateMany keep hr
    exact ⟨r', hr', id, fun none? => absurd none? unstamped⟩

/-- The batch that has been resolved is struck off the list. -/
theorem StuckCovers.resolve {rows' : List Ticket} {f : RelayBatch → RelayBatch}
    {left : List (Uuid × List ChunkTicket)} (h : StuckCovers rows batches ((b, tickets) :: left))
    (keep : ∀ r, (f r).id = r.id) (ids : rows'.map (·.id) = rows.map (·.id))
    (back : ∀ t' ∈ rows', ∀ x, t'.relayBatchId = some x →
      ∃ t ∈ rows, t.id = t'.id ∧ t.relayBatchId = some x)
    (gone : ∀ t' ∈ rows', t'.megapotNftId = none → ∀ x, t'.relayBatchId = some x →
      x ≠ b ∧ ∃ t ∈ rows, t.relayBatchId = some x ∧ t.megapotNftId = none) :
    StuckCovers rows' (Table.updateMany (·.id == b) f batches) left where
  bound t' ht' unstamped x bound := by
    obtain ⟨other, t, ht, bound, none?⟩ := gone t' ht' unstamped x bound
    have listed := h.bound t ht none? x bound
    rw [List.map_cons, List.mem_cons] at listed
    exact listed.resolve_left other
  holds batch hb :=
    (h.holds batch (List.mem_cons_of_mem _ hb)).keep ids
      (fun x hx => by rwa [batchIds_updateMany keep]) fun t' ht' bound => back t' ht' _ bound

section Confirm

variable {txHash : TxHash} {ticketIds : List NftId}

theorem back_of_stamp {h : Option TxHash} {pairs : List (ChunkTicket × NftId)} {t' : Ticket}
    (ht' : t' ∈ stamp h pairs rows) :
    ∃ t ∈ rows, t.id = t'.id ∧ t.relayBatchId = t'.relayBatchId := by
  obtain ⟨t, ht, columns, -, -, batch, -⟩ := mem_stamp ht'
  exact ⟨t, ht, (congrArg ChunkTicket.id columns).symm, batch.symm⟩

/-- With an id for every ticket, the batch is left with no ticket that has none. -/
theorem gone_of_stamp (enough : tickets.length ≤ ticketIds.length)
    (holds : Holds rows batches b tickets) : ∀ t' ∈ stamp (some txHash) (tickets.zip ticketIds) rows,
      t'.megapotNftId = none → ∀ x, t'.relayBatchId = some x →
        x ≠ b ∧ ∃ t ∈ rows, t.relayBatchId = some x ∧ t.megapotNftId = none := by
  intro t' ht' unstamped x bound
  obtain ⟨t, ht, -, batch, none?, out⟩ := unstamped_of_stamp ht' unstamped
  rw [ids_of_zip enough] at out
  refine ⟨?_, t, ht, batch.trans bound, none?⟩
  rintro rfl
  exact out (holds.bound t ht (batch.trans bound))

theorem Carried.confirm (h : Carried rows batches) (enough : tickets.length ≤ ticketIds.length)
    (holds : Holds rows batches b tickets) :
    Carried (stamp (some txHash) (tickets.zip ticketIds) rows)
      (Table.updateMany (·.id == b) (fun r => { r with status := .CONFIRMED }) batches) := by
  refine h.resolve (fun _ => rfl) (fun t' ht' x bound => ?_) (gone_of_stamp enough holds)
  obtain ⟨t, ht, -, batch⟩ := back_of_stamp ht'
  exact ⟨t, ht, batch.trans bound⟩

theorem StuckCovers.confirm {left : List (Uuid × List ChunkTicket)}
    (h : StuckCovers rows batches ((b, tickets) :: left))
    (enough : tickets.length ≤ ticketIds.length) :
    StuckCovers (stamp (some txHash) (tickets.zip ticketIds) rows)
      (Table.updateMany (·.id == b) (fun r => { r with status := .CONFIRMED }) batches) left := by
  have holds := h.holds _ List.mem_cons_self
  refine h.resolve (fun _ => rfl) (map_id_stamp ..) (fun t' ht' x bound => ?_)
    (gone_of_stamp enough holds)
  obtain ⟨t, ht, id, batch⟩ := back_of_stamp ht'
  exact ⟨t, ht, id, batch.trans bound⟩

theorem FreshCovers.confirm {rest : List (List ChunkTicket)} (h : FreshCovers rows (tickets :: rest))
    (enough : tickets.length ≤ ticketIds.length) :
    FreshCovers (stamp (some txHash) (tickets.zip ticketIds) rows) rest where
  unstamped t' ht' unstamped := by
    obtain ⟨t, ht, id, -, none?, out⟩ := unstamped_of_stamp ht' unstamped
    rw [ids_of_zip enough] at out
    have listed := h.unstamped t ht none?
    rw [List.flatten_cons, List.map_append, List.mem_append] at listed
    exact id ▸ listed.resolve_left out
  mine c hc := by
    rw [map_id_stamp]
    exact h.mine c (by rw [List.flatten_cons]; exact List.mem_append_right _ hc)

end Confirm

section Release

variable {reason : String}

/-- The rows after the release of these tickets. -/
def unbound (tickets : List ChunkTicket) (rows : List Ticket) : List Ticket :=
  Table.updateMany (fun t => (tickets.map (·.id)).contains t.id)
    (fun t => { t with relayBatchId := none }) rows

theorem map_id_unbound : (unbound tickets rows).map (·.id) = rows.map (·.id) :=
  Table.map_updateMany _ fun _ _ _ => rfl

theorem back_of_unbound {t' : Ticket} (ht' : t' ∈ unbound tickets rows) {x : Uuid}
    (bound : t'.relayBatchId = some x) : t' ∈ rows ∧ t'.id ∉ tickets.map (·.id) := by
  obtain ⟨t, ht, rfl⟩ := Table.mem_updateMany.1 ht'
  split at bound
  · cases bound
  · rename_i out
    rw [if_neg out]
    exact ⟨ht, fun listed => out (List.contains_iff_mem.2 listed)⟩

theorem gone_of_unbound (holds : Holds rows batches b tickets) : ∀ t' ∈ unbound tickets rows,
    t'.megapotNftId = none → ∀ x, t'.relayBatchId = some x →
      x ≠ b ∧ ∃ t ∈ rows, t.relayBatchId = some x ∧ t.megapotNftId = none := by
  intro t' ht' unstamped x bound
  obtain ⟨mem, out⟩ := back_of_unbound ht' bound
  refine ⟨?_, t', mem, bound, unstamped⟩
  rintro rfl
  exact out (holds.bound t' mem bound)

theorem Carried.release (h : Carried rows batches) (holds : Holds rows batches b tickets) :
    Carried (unbound tickets rows)
      (Table.updateMany (·.id == b)
        (fun r => { r with status := .FAILED, error := some (slice2000 reason) }) batches) :=
  h.resolve (fun _ => rfl) (fun t' ht' _ bound => ⟨t', (back_of_unbound ht' bound).1, bound⟩)
    (gone_of_unbound holds)

theorem StuckCovers.release {left : List (Uuid × List ChunkTicket)}
    (h : StuckCovers rows batches ((b, tickets) :: left)) :
    StuckCovers (unbound tickets rows)
      (Table.updateMany (·.id == b)
        (fun r => { r with status := .FAILED, error := some (slice2000 reason) }) batches) left :=
  h.resolve (fun _ => rfl) map_id_unbound
    (fun t' ht' _ bound => ⟨t', (back_of_unbound ht' bound).1, rfl, bound⟩)
    (gone_of_unbound (h.holds _ List.mem_cons_self))

end Release

section Bind

/-- The rows after these tickets have been bound. -/
def boundTo (b : Uuid) (tickets : List ChunkTicket) (rows : List Ticket) : List Ticket :=
  Table.updateMany (fun t => (tickets.map (·.id)).contains t.id)
    (fun t => { t with relayBatchId := some b }) rows

theorem map_id_boundTo : (boundTo b tickets rows).map (·.id) = rows.map (·.id) :=
  Table.map_updateMany _ fun _ _ _ => rfl

theorem back_of_boundTo {t' : Ticket} (ht' : t' ∈ boundTo b tickets rows) :
    ∃ t ∈ rows, t.id = t'.id ∧ t.megapotNftId = t'.megapotNftId ∧
      (t.relayBatchId = t'.relayBatchId ∨
        t'.relayBatchId = some b ∧ t'.id ∈ tickets.map (·.id)) := by
  obtain ⟨t, ht, rfl⟩ := Table.mem_updateMany.1 ht'
  refine ⟨t, ht, ?_⟩
  split
  · rename_i listed
    exact ⟨rfl, rfl, .inr ⟨rfl, List.contains_iff_mem.1 listed⟩⟩
  · exact ⟨rfl, rfl, .inl rfl⟩

theorem Carried.bind (h : Carried rows batches)
    (created : ∃ r ∈ batches, r.id = b ∧ r.status = .SUBMITTED) :
    Carried (boundTo b tickets rows) batches := by
  intro t' ht' x bound
  obtain ⟨t, ht, -, stamp, same | ⟨new, -⟩⟩ := back_of_boundTo ht'
  · rw [← stamp]
    exact h t ht x (same.trans bound)
  · obtain ⟨r, hr, id, submitted⟩ := created
    obtain rfl : b = x := Option.some.inj (new.symm.trans bound)
    exact ⟨r, hr, id, fun _ => submitted⟩

theorem Holds.bind (created : ∃ r ∈ batches, r.id = b ∧ r.status = .SUBMITTED)
    (new : ∀ t ∈ rows, t.relayBatchId ≠ some b) (mine : ∀ c ∈ tickets, c.id ∈ rows.map (·.id)) :
    Holds (boundTo b tickets rows) batches b tickets where
  batch := by
    obtain ⟨r, hr, rfl, -⟩ := created
    exact List.mem_map_of_mem hr
  mine := by
    rw [map_id_boundTo]
    exact mine
  bound t' ht' bound := by
    obtain ⟨t, ht, -, -, same | ⟨-, listed⟩⟩ := back_of_boundTo ht'
    · exact absurd (same.trans bound) (new t ht)
    · exact listed

theorem FreshCovers.bind {left : List (List ChunkTicket)} (h : FreshCovers rows left) :
    FreshCovers (boundTo b tickets rows) left := by
  refine h.keep map_id_boundTo fun t' ht' unstamped => ?_
  obtain ⟨t, ht, id, stamp, -⟩ := back_of_boundTo ht'
  exact ⟨t, ht, id, stamp.trans unstamped⟩

end Bind

end Writes

/-! ## The loops -/

section Loops

variable {rows : List Ticket} {batches : List RelayBatch}

theorem covers_resolveBatches {stuck : List StuckBatch}
    (h : StuckCovers rows batches (stuck.map StuckBatch.held)) :
    (resolveBatches stuck).Covers rows batches := by
  cases stuck with
  | nil => exact h
  | cons batch rest =>
    rw [resolveBatches]
    split
    · exact h
    · exact h

theorem covers_submitChunks {left : List (List ChunkTicket)} (h : FreshCovers rows left)
    (batchIndex : Nat) : (submitChunks batchIndex left).Covers rows batches := by
  cases left with
  | nil => exact h
  | cons chunk rest => exact h

/-- Every pending ticket is in a chunk. -/
theorem exists_chunk {chunkSize : Nat} (positive : 0 < chunkSize) {tickets : List ChunkTicket}
    {c : ChunkTicket} (hc : c ∈ tickets) : c ∈ (chunks chunkSize tickets).flatten := by
  obtain ⟨j, hj, rfl⟩ := List.getElem_of_mem hc
  have split := Nat.div_add_mod j chunkSize
  have small := Nat.mod_lt j positive
  have among : j / chunkSize < (tickets.length + chunkSize - 1) / chunkSize := by
    rw [Nat.div_lt_iff_lt_mul positive]
    have up := Nat.div_add_mod (tickets.length + chunkSize - 1) chunkSize
    have below := Nat.mod_lt (tickets.length + chunkSize - 1) positive
    rw [Nat.mul_comm] at up
    omega
  refine List.mem_flatten.2 ⟨_, List.mem_map.2 ⟨j / chunkSize, List.mem_range.2 among, rfl⟩, ?_⟩
  refine List.mem_of_getElem? (i := j % chunkSize) ?_
  rw [List.getElem?_take, if_pos small, List.getElem?_drop, Nat.mul_comm, split]
  exact List.getElem?_eq_getElem hj

theorem FreshCovers.chunks {tickets : List ChunkTicket} (h : FreshCovers rows [tickets]) :
    FreshCovers rows (chunks baseTicketChunkSize tickets) where
  unstamped t ht none? := by
    obtain ⟨c, hc, id⟩ := List.mem_map.1 (h.unstamped t ht none?)
    rw [List.flatten_cons, List.flatten_nil, List.append_nil] at hc
    exact List.mem_map.2 ⟨c, exists_chunk (by decide) hc, id⟩
  mine c hc := by
    obtain ⟨chunk, hchunk, hc⟩ := List.mem_flatten.1 hc
    exact h.mine c (by simpa using mem_of_chunks hchunk hc)

end Loops

end LordsPot.Relay
