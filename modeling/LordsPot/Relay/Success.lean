import LordsPot.Relay.Knowledge
import LordsPot.Relay.Minted

/-!
# The way to SUCCESS

Every phase of a job keeps its claim on the order's tickets, so that the job which comes to its
SUCCESS update finds an id on every one of them.
-/

namespace LordsPot.Relay

open Transition

/-- What a process may rely on: it has read all tickets of its order, and inside its `try` the order
is not in SUCCESS and the phase's claim on the tickets holds. -/
structure Tracked (db : Db) (p : Proc) : Prop where
  all : ∀ order, p.order? = some order →
    (order.tickets.map (·.id)).Perm ((rowsOf db order.hash).map (·.id))
  notDone : ∀ order round phase, p = .relaying order round phase →
    ∀ o ∈ db.relayOrders, o.hash = order.hash → o.status ≠ .SUCCESS
  covers : ∀ order round phase, p = .relaying order round phase →
    phase.Covers (rowsOf db order.hash) (batchesOf db order.hash)

namespace Tracked

variable {db db' : Db} {p : Proc} {order : OrderRead} {round : Nat}

theorem idle (none? : p.order? = none) (out : ∀ order round phase, p ≠ .relaying order round phase) :
    Tracked db p where
  all order h := by rw [none?] at h; cases h
  notDone order round phase h := absurd h (out order round phase)
  covers order round phase h := absurd h (out order round phase)

theorem leaving (h : p.leaving = true) : Tracked db p := by
  refine .idle (order_leaving h) fun order round phase is => ?_
  rw [is] at h
  cases h

theorem reads (same : p.order? = some order) (out : ∀ order round phase, p ≠ .relaying order round phase)
    (all : (order.tickets.map (·.id)).Perm ((rowsOf db order.hash).map (·.id))) : Tracked db p where
  all o h := by
    rw [same] at h
    cases h
    exact all
  notDone order round phase h := absurd h (out order round phase)
  covers order round phase h := absurd h (out order round phase)

theorem relaying {phase : Phase}
    (all : (order.tickets.map (·.id)).Perm ((rowsOf db order.hash).map (·.id)))
    (notDone : ∀ o ∈ db.relayOrders, o.hash = order.hash → o.status ≠ .SUCCESS)
    (covers : phase.Covers (rowsOf db order.hash) (batchesOf db order.hash)) :
    Tracked db (.relaying order round phase) where
  all o h := by cases h; exact all
  notDone o r ph h := by cases h; exact notDone
  covers o r ph h := by cases h; exact covers

/-- A call of another process leaves it what it relies on. -/
theorem elsewhere {hash? : Option Bytes32} (h : Tracked db p) (w : Written hash? db db')
    (other : ∀ hash, p.hash? = some hash → hash? ≠ some hash) : Tracked db' p where
  all order is := by
    rw [w.ids]
    exact h.all order is
  notDone order round phase is o' ho' mine success := by
    obtain ⟨-, -, back⟩ := w.elsewhere order.hash (other _ (by rw [is]; rfl))
    obtain ⟨o, ho, mine, success⟩ := back o' ho' mine success
    exact h.notDone order round phase is o ho mine success
  covers order round phase is := by
    obtain ⟨rows, batches, -⟩ := w.elsewhere order.hash (other _ (by rw [is]; rfl))
    rw [rows, batches]
    exact h.covers order round phase is

theorem thrown (w : ∀ h, (rowsOf db' h).map (·.id) = (rowsOf db h).map (·.id)) (h : Tracked db p) :
    Tracked db' p.thrown := by
  unfold Proc.thrown
  split
  · rename_i order round phase
    refine .reads rfl (fun _ _ _ is => by cases is) ?_
    rw [w]
    exact h.all order rfl
  · exact .leaving rfl

end Tracked

/-! ## The reads -/

section Reads

variable {db : Db} {hash : Bytes32}

theorem all_of_returned {tickets : List ChunkTicket} (read : returned db (ofOrder hash) tickets = true) :
    (tickets.map (·.id)).Perm ((rowsOf db hash).map (·.id)) := by
  have perm := (List.isPerm_iff.1 read).map ChunkTicket.id
  rwa [List.map_map] at perm

/-- The batches in SUBMITTED have every bound ticket without an NFT id. -/
theorem stuckCovers_of_returned (sound : Sound db) {stuck : List StuckBatch}
    (read : returnedStuck db hash stuck = true) :
    StuckCovers (rowsOf db hash) (batchesOf db hash) (stuck.map StuckBatch.held) := by
  rw [returnedStuck, Bool.and_eq_true, List.all_eq_true] at read
  obtain ⟨list, each⟩ := read
  have perm := (List.isPerm_iff.1 list).map Prod.fst
  rw [List.map_map, List.map_map] at perm
  constructor
  · intro t ht unstamped b bound
    obtain ⟨r, hr, rfl, submitted⟩ := sound.carried hash t ht b bound
    obtain ⟨mem, own⟩ := mem_batchesOf.1 hr
    have listed : r.id ∈ stuck.map (·.id) := by
      refine perm.mem_iff.2 (List.mem_map.2 ⟨r, List.mem_filter.2 ⟨mem, ?_⟩, rfl⟩)
      simp [own, submitted unstamped]
    rw [List.map_map]
    exact listed
  · intro held hheld
    obtain ⟨batch, hbatch, rfl⟩ := List.mem_map.1 hheld
    have row : batch.id ∈ stuck.map (·.id) := List.mem_map_of_mem hbatch
    obtain ⟨r, hr, id⟩ := List.mem_map.1 (perm.mem_iff.1 row)
    obtain ⟨mem, is⟩ := List.mem_filter.1 hr
    rw [Bool.and_eq_true, beq_iff_eq, beq_iff_eq] at is
    have mine : r ∈ batchesOf db hash := mem_batchesOf.2 ⟨mem, is.1⟩
    refine ⟨List.mem_map.2 ⟨r, mine, id⟩, fun c hc => ?_, fun t ht bound => ?_⟩
    · -- a ticket that is bound to the batch is the order's, like the batch
      obtain ⟨t, ht, bound, rfl⟩ := mem_returned (each batch hbatch) hc
      obtain ⟨r', hr', id', -⟩ :=
        sound.carried t.orderHash t (mem_rowsOf.2 ⟨ht, rfl⟩) batch.id (beq_iff_eq.1 bound)
      obtain ⟨mem', own'⟩ := mem_batchesOf.1 hr'
      obtain rfl := List.inj_on_of_nodup_map sound.tables.batchIds mem' mem (id'.trans id.symm)
      exact List.mem_map.2 ⟨t, mem_rowsOf.2 ⟨ht, own'.symm.trans is.1⟩, rfl⟩
    · have perm := List.isPerm_iff.1 (each batch hbatch)
      have selected : select t ∈ batch.tickets := by
        refine perm.mem_iff.2 (List.mem_map_of_mem (List.mem_filter.2 ⟨(mem_rowsOf.1 ht).1, ?_⟩))
        exact beq_iff_eq.2 bound
      exact List.mem_map.2 ⟨_, selected, rfl⟩

/-- With no unfinished batch every ticket without an NFT id is pending. -/
theorem freshCovers_of_returned {tickets : List ChunkTicket}
    (read : returned db (pending hash) tickets = true)
    (resolved : StuckCovers (rowsOf db hash) (batchesOf db hash) []) :
    FreshCovers (rowsOf db hash) [tickets] := by
  constructor
  · intro t ht unstamped
    obtain ⟨mem, own⟩ := mem_rowsOf.1 ht
    have unbound : t.relayBatchId = none := by
      cases bound : t.relayBatchId with
      | none => rfl
      | some b => exact absurd (resolved.bound t ht unstamped b bound) List.not_mem_nil
    have selected : select t ∈ tickets := by
      refine (List.isPerm_iff.1 read).mem_iff.2 (List.mem_map_of_mem (List.mem_filter.2 ⟨mem, ?_⟩))
      simp [pending, own, unstamped, unbound]
    rw [List.flatten_cons, List.flatten_nil, List.append_nil]
    exact List.mem_map.2 ⟨_, selected, rfl⟩
  · intro c hc
    rw [List.flatten_cons, List.flatten_nil, List.append_nil] at hc
    obtain ⟨t, ht, is, rfl⟩ := mem_returned read hc
    rw [pending, Bool.and_eq_true, Bool.and_eq_true, beq_iff_eq] at is
    exact List.mem_map.2 ⟨t, mem_rowsOf.2 ⟨ht, is.1.1⟩, rfl⟩

end Reads

/-! ## The calls of a job -/

/-- What a call leaves, for every process and for the one that made it. -/
structure Leaves (hash? : Option Bytes32) (s s' : State) (p' : Proc) : Prop where
  written : Written hash? s.db s'.db
  tracked : Tracked s'.db p'

section Calls

variable {keccak256 : String → Bytes32} {s s' : State} {p p' : Proc} {call : Call}

/-- The ids are enough for the tickets, should the call stamp any. -/
def Proc.enough (db : Db) : Proc → Call → Prop
  | .relaying _ _ (.confirming _ tickets _ ticketIds _), .write => tickets.length ≤ ticketIds.length
  | .finalizing order _ ticketIds _, .write =>
      finalizable db order.hash = true → order.tickets.length = ticketIds.length
  | _, _ => True

theorem phaseMove_leaves (sound : Sound s.db) {order : OrderRead} {round : Nat} {phase : Phase}
    (tracked : Tracked s.db (.relaying order round phase))
    (enough : (Proc.relaying order round phase).enough s.db call)
    (h : phaseStep keccak256 s order round phase call = some (s', p')) :
    Leaves (some order.hash) s s' p' := by
  have all := tracked.all order rfl
  have notDone := tracked.notDone order round phase rfl
  have covers := tracked.covers order round phase rfl
  -- the next phase, after a write to the tickets and batches
  have next : ∀ {db' : Db} {phase' : Phase}, Written (some order.hash) s.db db' →
      db'.relayOrders = s.db.relayOrders →
      phase'.Covers (rowsOf db' order.hash) (batchesOf db' order.hash) →
      Leaves (some order.hash) s { s with db := db' } (.relaying order round phase') := by
    intro db' phase' w orders covers'
    refine ⟨w, .relaying (by rw [w.ids]; exact all) ?_ covers'⟩
    rw [orders]
    exact notDone
  have stay : ∀ {phase' : Phase}, phase'.Covers (rowsOf s.db order.hash) (batchesOf s.db order.hash) →
      Leaves (some order.hash) s s (.relaying order round phase') := fun covers' =>
    ⟨.refl sound, .relaying all notDone covers'⟩
  cases phaseMove h with
  | findStuck read => exact stay (covers_resolveBatches (stuckCovers_of_returned sound read))
  | timeout | mined | reverted | alreadyDone | refused | missing | recovered => exact stay covers
  | confirm =>
    rename_i b tickets txHash ticketIds loop
    refine next (.confirm sound notDone covers.holds enough) rfl ?_
    rw [rowsOf_confirm, batchesOf_confirm]
    cases loop with
    | stuck rest => exact covers_resolveBatches (StuckCovers.confirm covers enough)
    | fresh batchIndex rest => exact covers_submitChunks (covers.2.confirm enough) _
  | release =>
    rename_i b tickets reason loop
    have w : Written (some order.hash) s.db (releaseChunk s.db b tickets reason) :=
      .release sound notDone covers.holds
    cases loop with
    | stuck rest =>
      refine next w rfl ?_
      rw [rowsOf_release, batchesOf_release]
      exact covers_resolveBatches (StuckCovers.release covers)
    | fresh batchIndex rest =>
      exact ⟨w, .reads rfl (fun _ _ _ is => by cases is) (by rw [w.ids]; exact all)⟩
  | noPending =>
    have read : returned s.db (pending order.hash) [] = true := by
      simp only [phaseStep] at h
      split at h
      · assumption
      · cases h
    have covered := freshCovers_of_returned read covers
    exact stay ⟨covered.unstamped, fun c hc => absurd hc List.not_mem_nil⟩
  | findPending read => exact stay (freshCovers_of_returned read covers)
  | count => exact stay (covers_submitChunks (FreshCovers.chunks covers) _)
  | create fresh =>
    rename_i b batchIndex chunk rest
    refine next (.create sound notDone fresh batchIndex) rfl ⟨?_, ?_, covers⟩
    · exact ⟨_, mem_batchesOf.2 ⟨List.mem_append_right _ List.mem_cons_self, rfl⟩, rfl, rfl⟩
    · intro t ht bound
      obtain ⟨r, hr, id, -⟩ := sound.carried order.hash t ht b bound
      simpa [id] using List.all_eq_true.1 fresh r (mem_batchesOf.1 hr).1
  | bind =>
    rename_i b batchIndex chunk rest
    obtain ⟨created, new, left⟩ := covers
    have mine : ∀ c ∈ chunk, c.id ∈ (rowsOf s.db order.hash).map (·.id) := fun c hc =>
      left.mine c (by rw [List.flatten_cons]; exact List.mem_append_left _ hc)
    refine next (.bind sound notDone created mine) rfl ?_
    rw [show batchesOf (bindChunk s.db b chunk) order.hash = batchesOf s.db order.hash from rfl,
      rowsOf_bind]
    exact ⟨.bind created new mine, left.bind⟩
  | submit fresh => exact ⟨.refl sound, .relaying all notDone covers⟩
  | record =>
    rename_i b batchIndex chunk rest txHash
    refine next (.record sound notDone covers.1) rfl ?_
    rw [batchesOf_record]
    refine ⟨covers.1.keep rfl (fun x hx => ?_) fun t ht bound => ⟨t, ht, rfl, bound⟩, covers.2⟩
    rwa [batchIds_updateMany (by exact fun _ => rfl)]
  | collect =>
    rename_i ticketIds
    have read : ticketIds.isPerm
        ((s.db.tickets.filter (ofOrder order.hash)).filterMap (·.megapotNftId)) = true := by
      simp only [phaseStep] at h
      split at h
      · assumption
      · cases h
    exact stay ⟨covers, List.isPerm_iff.1 read⟩
  | succeed =>
    rename_i ticketIds
    obtain ⟨stamped, perm⟩ := covers
    refine ⟨.succeed sound (fun o => ⟨rfl, rfl⟩) (fun o ho => ?_) (fun _ => rfl) rfl
      (sound.carried order.hash) rfl (fun _ _ => rfl) (fun t ht none? => ?_) perm,
      .idle rfl fun _ _ _ is => by cases is⟩
    · rw [Bool.and_eq_true, beq_iff_eq]
      refine ⟨And.left, fun same => ⟨same, ?_⟩⟩
      cases o.status <;> decide
    · exact absurd (stamped.unstamped t ht none?) List.not_mem_nil

theorem lastWrite_written (sound : Sound s.db) (tracked : Tracked s.db p) {db' : Db}
    (enough : p.enough s.db .write) (write : LastWrite s.db p db') : Written p.hash? s.db db' := by
  cases write with
  | finalize => exact .finalize sound (tracked.all _ rfl) enough
  | defer | underfund | strand | pause | bounce | reject | reset =>
    exact .orders sound (fun _ => ⟨rfl, rfl⟩) (fun _ success => by cases success)
  | fail =>
    refine .orders sound (fun _ => ⟨rfl, rfl⟩) fun _ success => ?_
    rename_i hash isPermanent reason o
    cases isPermanent <;> cases success

/-- The order a job has locked is in PROCESSING. -/
theorem notDone_of_lock (sound : Sound s.db) {hash : Bytes32} (taken : lockCount s.db hash ≠ 0) :
    ∀ o ∈ (lockOrder s.db hash).relayOrders, o.hash = hash → o.status ≠ .SUCCESS := by
  intro o' ho' mine success
  obtain ⟨o, ho, rfl⟩ := Table.mem_updateMany.1 ho'
  split at success
  · cases success
  · rename_i miss
    rw [if_neg miss] at mine
    obtain ⟨u, hu⟩ := List.exists_mem_of_length_pos (Nat.pos_of_ne_zero taken)
    obtain ⟨mem, is⟩ := List.mem_filter.1 hu
    rw [Bool.and_eq_true, beq_iff_eq] at is
    obtain rfl := List.inj_on_of_nodup_map sound.tables.orderHashes mem ho (is.1.trans mine.symm)
    exact miss (by rw [Bool.and_eq_true, beq_iff_eq]; exact is)

theorem phaseStep_of_procStep {order : OrderRead} {round : Nat} {phase : Phase}
    (h : procStep keccak256 s (.relaying order round phase) call = some (s', p')) :
    call = .throw ∨ call = .crash ∨ phaseStep keccak256 s order round phase call = some (s', p') := by
  cases call with
  | throw => exact .inl rfl
  | crash => exact .inr (.inl rfl)
  | _ => exact .inr (.inr h)

theorem procMove_leaves (sound : Sound s.db) (tracked : Tracked s.db p) (enough : p.enough s.db call)
    (h : procStep keccak256 s p call = some (s', p')) : Leaves p.hash? s s' p' := by
  -- a process that keeps the order it has read, outside the `try`
  have carries : ∀ {order : OrderRead}, p.order? = some order → p'.order? = some order →
      (∀ order round phase, p' ≠ .relaying order round phase) → s' = s → Leaves p.hash? s s' p' := by
    rintro order had has out rfl
    exact ⟨.refl sound, .reads has out (tracked.all order had)⟩
  cases procMove h with
  | leave leaving => exact ⟨.refl sound, .leaving leaving⟩
  | throw => exact ⟨.refl sound, tracked.thrown fun _ => rfl⟩
  | phase move =>
    rcases phaseStep_of_procStep h with rfl | rfl | h
    · cases move
    · cases move
    · exact phaseMove_leaves sound tracked enough h
  | lastWrite write =>
    exact ⟨lastWrite_written sound tracked enough write, .idle rfl fun _ _ _ is => by cases is⟩
  | read found read | confirmerRead found read =>
    exact ⟨.refl sound, .reads rfl (fun _ _ _ is => by cases is) (all_of_returned read)⟩
  | gate | fund | alreadyDone | recovered | readRound | mined | reverted | confirmerAlreadyDone
  | confirmerRecovered => exact carries rfl rfl (fun _ _ _ is => by cases is) rfl
  | lock =>
    rename_i order round
    have taken : lockCount s.db order.hash ≠ 0 := by
      intro none?
      simp only [procStep, none?, ↓reduceIte, Option.some.injEq, Prod.mk.injEq] at h
      cases h.2
    refine ⟨.orders sound (fun _ => ⟨rfl, rfl⟩) (fun _ success => by cases success), ?_⟩
    exact .relaying (tracked.all order rfl) (notDone_of_lock sound taken) trivial
  | lockTaken =>
    exact ⟨.orders sound (fun _ => ⟨rfl, rfl⟩) (fun _ success => by cases success),
      .idle rfl fun _ _ _ is => by cases is⟩

end Calls

/-! ## One at a time -/

/-- The tables are in order, each process may rely on what it does, and no two are at one order. -/
structure OneEach (s : State) : Prop where
  sound : Sound s.db
  tracked : ∀ p ∈ s.procs, Tracked s.db p
  apart : ∀ (i j : Nat) (p q : Proc), s.procs[i]? = some p → s.procs[j]? = some q → i ≠ j →
    ∀ hash, p.hash? = some hash → q.hash? ≠ some hash

namespace OneEach

variable {keccak256 : String → Bytes32} {s s' : State}

/-- A step that leaves the tables and the processes alone. -/
theorem same (h : OneEach s) (db : s'.db = s.db) (procs : s'.procs = s.procs) : OneEach s' where
  sound := db ▸ h.sound
  tracked := by
    rw [db, procs]
    exact h.tracked
  apart := by
    rw [procs]
    exact h.apart

theorem start (h : OneEach s) {p : Proc} (fresh : ∀ db, Tracked db p)
    (free : ∀ q ∈ s.procs, ∀ hash, p.hash? = some hash → q.hash? ≠ some hash) :
    OneEach { s with procs := s.procs ++ [p] } where
  sound := h.sound
  tracked q hq := by
    rcases List.mem_append.1 hq with old | new
    · exact h.tracked q old
    · cases List.mem_singleton.1 new
      exact fresh _
  apart i j q r hi hj ne hash hq hr := by
    rcases Table.of_getElem?_concat hi with old | ⟨last, rfl⟩ <;>
      rcases Table.of_getElem?_concat hj with old' | ⟨last', rfl⟩
    · exact h.apart i j q r old old' ne hash hq hr
    · exact free q (List.mem_of_getElem? old) hash hr hq
    · exact free r (List.mem_of_getElem? old') hash hq hr
    · exact ne (last.trans last'.symm)

/-- Process `i` makes a step that may change its own order's part of the tables. -/
theorem set (h : OneEach s) {i : Nat} {p p' : Proc} {db' : Db} (hi : s.procs[i]? = some p)
    (w : Written p.hash? s.db db') (tracked : Tracked db' p')
    (stays : p'.hash? = none ∨ p'.hash? = p.hash?) :
    OneEach { s with db := db', procs := s.procs.set i p' } := by
  have mine : ∀ hash, p'.hash? = some hash → p.hash? = some hash := by
    intro hash is
    rcases stays with none? | same
    · rw [none?] at is
      cases is
    · exact same ▸ is
  constructor
  · exact w.sound h.sound
  · intro q hq
    obtain ⟨k, hk⟩ := List.mem_iff_getElem?.1 hq
    rcases Table.of_getElem?_set hk with ⟨-, rfl⟩ | ⟨ne, hk⟩
    · exact tracked
    · refine (h.tracked q (List.mem_of_getElem? hk)).elsewhere w fun hash own taken => ?_
      exact h.apart k i q p hk hi ne hash own taken
  · intro k j q r hk hj ne hash hq hr
    rcases Table.of_getElem?_set hk with ⟨rfl, rfl⟩ | ⟨-, old⟩ <;>
      rcases Table.of_getElem?_set hj with ⟨rfl, rfl⟩ | ⟨-, old'⟩
    · exact ne rfl
    · exact h.apart k j p r hi old' ne hash (mine hash hq) hr
    · exact h.apart k j q p old hi ne hash hq (mine hash hr)
    · exact h.apart k j q r old old' ne hash hq hr

theorem initial (hi : Ingested keccak256 s) : OneEach s := by
  have none? : ∀ t ∈ s.db.tickets, t.relayBatchId = none := hi.unbound
  refine ⟨⟨⟨hi.ticketIds, hi.orderHashes, ?_⟩, ?_, ?_, hi.counted⟩, ?_, ?_⟩
  · rw [hi.noBatches]
    exact List.nodup_nil
  · intro h t ht b bound
    rw [none? t (mem_rowsOf.1 ht).1] at bound
    cases bound
  · exact fun o ho success => absurd success (hi.notDone o ho)
  · rw [hi.noProcs]
    exact fun p hp => absurd hp List.not_mem_nil
  · intro i j p q hp
    rw [hi.noProcs] at hp
    cases hp

theorem enough_of_check {i : Nat} {p : Proc} {call : Call} {lost : Bool} (hi : s.procs[i]? = some p)
    (ok : enoughIds s (.relay (.call i call lost)) = true) : p.enough s.db call := by
  unfold Proc.enough
  split
  · simpa [enoughIds, hi] using ok
  · intro open?
    simpa [enoughIds, hi, open?] using ok
  · trivial

/-- A call, whether its answer is lost or not. -/
theorem call (h : OneEach s) {i : Nat} {p p' : Proc} {call : Call} {s₁ : State} (lost : Bool)
    (hi : s.procs[i]? = some p) (enough : p.enough s.db call)
    (hp : procStep keccak256 s p call = some (s₁, p')) :
    OneEach { s₁ with procs := s.procs.set i (if lost then p.thrown else p') } := by
  have tracked := h.tracked p (List.mem_of_getElem? hi)
  have leaves := procMove_leaves h.sound tracked enough hp
  cases lost with
  | false =>
    exact (h.set hi leaves.written leaves.tracked (hash_of_procStep hp)).same rfl rfl
  | true =>
    exact (h.set hi leaves.written (tracked.thrown leaves.written.ids) (hash_of_thrown p)).same rfl rfl

/-- What a receipt or an event yields is not relied on before it is written. -/
theorem yields (h : OneEach s) {i : Nat} {p p' : Proc} {ticketIds : List NftId}
    (hi : s.procs[i]? = some p) (parsed : p.parsed ticketIds = some p') :
    OneEach { s with procs := s.procs.set i p' } := by
  have tracked := h.tracked p (List.mem_of_getElem? hi)
  have kept : Tracked s.db p' ∧ p'.hash? = p.hash? := by
    unfold Proc.parsed at parsed
    split at parsed
    · rename_i order round b tickets txHash read loop
      cases parsed
      have covers := tracked.covers order round (.confirming b tickets txHash read loop) rfl
      exact ⟨.relaying (tracked.all _ rfl) (tracked.notDone _ _ _ rfl) covers, rfl⟩
    · cases parsed
      exact ⟨.reads rfl (fun _ _ _ is => by cases is) (tracked.all _ rfl), rfl⟩
    · cases parsed
  exact h.set hi (.refl h.sound) kept.1 (.inr kept.2)

theorem step (h : OneEach s) {a : Parse} (one : oneAtATime s a = true) (enough : enoughIds s a = true)
    (hs : parseStep keccak256 s a = some s') : OneEach s' := by
  have free : ∀ {hash : Bytes32}, (s.procs.all fun p => p.hash? != some hash) = true →
      ∀ q ∈ s.procs, ∀ h, some hash = some h → q.hash? ≠ some h := by
    intro hash all q hq h same
    cases same
    simpa using List.all_eq_true.1 all q hq
  cases a with
  | yields i ticketIds =>
    obtain ⟨p, hi, hs⟩ := Option.bind_eq_some_iff.1 hs
    obtain ⟨p', parsed, hs⟩ := Option.bind_eq_some_iff.1 hs
    cases hs
    exact h.yields hi parsed
  | relay action =>
    simp only [parseStep] at hs
    cases stepMove hs with
    | job | confirm =>
      exact h.start (fun _ => .idle rfl fun _ _ _ is => by cases is) (free one)
    | reset =>
      exact h.start (fun _ => .idle rfl fun _ _ _ is => by cases is)
        fun _ _ _ is => by cases is
    | requeue =>
      have w : Written none s.db (requeueDeferred s.db) :=
        .orders h.sound (fun _ => ⟨rfl, rfl⟩) fun _ success => by cases success
      exact ⟨w.sound h.sound, fun p hp => (h.tracked p hp).elsewhere w (fun _ _ is => by cases is),
        h.apart⟩
    | call here move => exact h.call _ here (enough_of_check here enough) move
    | mine | revert | rollover => exact h.same rfl rfl

end OneEach

/-- **SUCCESS means every ticket was minted**, in every run in which jobs come one at a time to an
order and no id list that is written is too short. -/
theorem minted_of_enough {keccak256 : String → Bytes32} {s : State}
    (h : (parsing keccak256).ReachableBy
      (fun s a => oneAtATime s a = true ∧ enoughIds s a = true) s) : Minted s.db := by
  have one : OneEach s := h.invariant (I := OneEach) (fun _ hi => .initial hi)
    fun _ _ _ inv ok hs => inv.step ok.1 ok.2 hs
  exact one.sound.minted

/-! ## One order with one ticket -/

/-- The order counts its ticket. -/
def ingested : State where
  db := {
    relayOrders := [{ hash := "signature", signature := "signature", buyer := "w", status := .QUEUED,
                      ticketCount := 1 }]
    tickets := (queued (alike ["1-"])).db.tickets }
  drawing := 1

theorem ingested_ingested : Ingested id ingested where
  orderHashes := List.nodup_singleton _
  ticketIds := List.nodup_singleton _
  hashed o ho := by cases List.mem_singleton.1 ho; rfl
  signatures o ho := by cases List.mem_singleton.1 ho; decide
  uuids t ht := by cases List.mem_singleton.1 ht; decide +kernel
  notDone o ho := by cases List.mem_singleton.1 ho; decide
  unstamped t ht := by cases List.mem_singleton.1 ht; rfl
  unbound t ht := by cases List.mem_singleton.1 ht; rfl
  noBatches := rfl
  txHashes := List.nodup_nil
  single tx htx := by cases htx
  recorded o ho h hh := by cases List.mem_singleton.1 ho; cases hh
  noProcs := rfl
  counted o ho := by cases List.mem_singleton.1 ho; decide +kernel

def relays (actions : List Action) : List Parse := actions.map .relay

def callsOf (i : Nat) (calls : List Call) : List Parse :=
  calls.map fun call => .relay (.call i call false)

/-- Job 0 broadcasts the ticket, and the transaction is mined. -/
def sentAndMined : List Parse :=
  relays (lockJob 0 1 (alike ["1-"])) ++ callsOf 0 [.findStuck []] ++
    relays (sendChunk 0 (alike ["1-"]) "b" "0x1") ++ callsOf 0 [.write] ++ relays [.mine "0x1" [101]]

/-- The job dies, the reconciler resets the order, and the next job finds the batch. -/
def diesAndResumes : List Parse :=
  sentAndMined ++ callsOf 0 [.crash] ++ relays [.reset "signature"] ++ callsOf 1 [.write] ++
    relays (lockJob 2 1 (alike ["1-"])) ++
    callsOf 2 [.findStuck [⟨"b", some "0x1", alike ["1-"]⟩], .receipt (some true), .write,
      .findPending [], .collect [101], .write]

/-- The receipt yields the id, and the resumed order ends with it. -/
theorem minted_resumed : ∃ s : State, (∀ o ∈ s.db.relayOrders, o.status = .SUCCESS ∧
    o.megapotTicketIds = [101]) ∧ Minted s.db := by
  obtain ⟨s, reach, at_⟩ := Machine.exists_reachableBy_of_runBy (M := parsing id)
    (fun s a => oneAtATime s a && enoughIds s a) ingested_ingested diesAndResumes
    (fun s => s.db.relayOrders.all fun o => o.status == .SUCCESS && o.megapotTicketIds == [101])
    (by decide +kernel)
  simp only [List.all_eq_true, Bool.and_eq_true, beq_iff_eq] at at_
  exact ⟨s, at_, minted_of_enough (reach.mono fun s a ok => Bool.and_eq_true_iff.1 ok)⟩

/-- A receipt without a `TicketsRouted` event yields no id: the ticket is never pending again, and
the order is SUCCESS without it. -/
theorem success_unminted : ¬ ∀ (keccak256 : String → Bytes32) (s : State),
    (parsing keccak256).ReachableBy (fun s a => oneAtATime s a = true) s → Minted s.db := by
  intro all
  obtain ⟨s, reach, at_⟩ := Machine.exists_reachableBy_of_runBy (M := parsing id) oneAtATime
    ingested_ingested
    (sentAndMined ++ callsOf 0 [.receipt (some true)] ++ [.yields 0 []] ++
      callsOf 0 [.write, .collect [], .write])
    (fun s => s.db.relayOrders.any fun o => o.status == .SUCCESS &&
      (rowsOf s.db o.hash).any fun t => t.megapotNftId == none)
    (by decide +kernel)
  simp only [List.any_eq_true, Bool.and_eq_true, beq_iff_eq] at at_
  obtain ⟨o, ho, success, t, ht, unminted⟩ := at_
  exact (all id s reach o ho success).1 t ht unminted

end LordsPot.Relay
