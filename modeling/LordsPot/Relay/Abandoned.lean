import LordsPot.Relay.Exclusive

/-!
# Abandoned tickets

Success is recorded for each chunk, failure for the order. Settlement and harvest look at SUCCESS
orders only, and payouts at what has been harvested, so that a ticket bought for an order in
FAILED_PERMANENT is never graded or paid. Such a ticket appears in two ways: the order fails for
good after one of its chunks has been confirmed, or two processes are at one order, and one confirms a
chunk of it while the other fails it. Without the two nothing is abandoned. The confirmer needs no
condition of its own: an order in BASE_SUBMITTED has never been locked, and its writes look at the
status.
-/

namespace LordsPot.Relay

open Transition

/-- No ticket with an NFT belongs to an order in FAILED_PERMANENT. -/
def Honoured (db : Db) : Prop :=
  ∀ t ∈ db.tickets, t.megapotNftId ≠ none →
    ∀ o ∈ db.relayOrders, o.hash = t.orderHash → o.status ≠ .FAILED_PERMANENT

/-- One of an order's tickets has an NFT. -/
def boughtOne (db : Db) (hash : Bytes32) : Bool :=
  db.tickets.any fun t => t.orderHash == hash && t.megapotNftId.isSome

/-- The order that a job has in its loop or its `catch`, or is about to fail. The job stamps tickets and
writes the failure without a look at the order's status. -/
def Proc.works : Proc → Option Bytes32
  | .relaying order _ _ | .catching order => some order.hash
  | .failing hash _ _ => some hash
  | _ => none

/-- The order of which a process may still stamp tickets: a job's, and the confirmer's. -/
def Proc.handles : Proc → Option Bytes32
  | .findingOrder order | .readingRound order _ _ | .finalizing order _ _ _ | .submitted order _
  | .confirmerClassifying order _ | .confirmerFinding order => some order.hash
  | p => p.works

/-- An error is taken for permanent only while none of the order's chunks is confirmed, and a job locks
an order only while no other process handles it. -/
def abandonSafe (s : State) : Action → Bool
  | .call i call _ => s.procs[i]?.all fun p => match p, call with
      | .catching order, .classify (.permanent _) => !boughtOne s.db order.hash
      | .locking order _, .lock => s.procs.all fun q => q.handles != some order.hash
      | _, _ => true
  | _ => true

theorem boughtOne_iff {db : Db} {hash : Bytes32} : boughtOne db hash = true ↔
    ∃ t ∈ db.tickets, t.orderHash = hash ∧ t.megapotNftId ≠ none := by
  simp [boughtOne, Option.isSome_iff_ne_none]

theorem handles_of_works {p : Proc} {hash : Bytes32} (h : p.works = some hash) :
    p.handles = some hash := by
  cases p <;> first | exact h | cases h

/-! ## What a call does -/

section Calls

variable {keccak256 : String → Bytes32} {s s' : State} {p p' : Proc} {call : Call}

theorem works_thrown : p.thrown.works = none ∨ p.thrown.works = p.works := by
  cases p with
  | relaying => exact .inr rfl
  | _ => exact .inl rfl

theorem handles_thrown : p.thrown.handles = none ∨ p.thrown.handles = p.handles := by
  cases p with
  | relaying => exact .inr rfl
  | _ => exact .inl rfl

/-- The job has just locked its order, or the confirmer has found its own in BASE_SUBMITTED. -/
inductive TakesUp (s : State) : Proc → Call → Proc → Prop where
  | lock {order : OrderRead} {round : Nat} (found : lockCount s.db order.hash ≠ 0) :
      TakesUp s (.locking order round) .lock (.relaying order round .findingStuck)
  | submitted {hash : Bytes32} {tickets : List ChunkTicket} {o : RelayOrder} {order : OrderRead}
      {baseTxHash : Option TxHash} (found : s.db.order? hash = some o) (own : order.hash = hash)
      (status : o.status = .BASE_SUBMITTED) :
      TakesUp s (.confirmerReading hash) (.read tickets) (.submitted order baseTxHash)

/-- **What a process handles** it handled before, unless it takes the order up. -/
theorem handles_procStep (h : procStep keccak256 s p call = some (s', p')) :
    (p'.handles = none ∨ p'.handles = p.handles) ∧ (p'.works = none ∨ p'.works = p.works) ∨
      TakesUp s p call p' := by
  unfold procStep at h
  split at h
  case h_1 =>
    split at h
    · cases h
      exact .inl ⟨.inl rfl, .inl rfl⟩
    · split at h <;> cases h
      split <;> exact .inl ⟨.inl rfl, .inl rfl⟩
  case h_2 | h_4 =>
    cases h
    split <;> exact .inl ⟨.inl rfl, .inl rfl⟩
  case h_6 order round =>
    cases h
    split
    · exact .inl ⟨.inl rfl, .inl rfl⟩
    · rename_i found
      exact .inr (.lock found)
  case h_7 order cls =>
    cases h
    cases cls with
    | already_processed => exact .inl ⟨.inr rfl, .inl rfl⟩
    | paused => exact .inl ⟨.inl rfl, .inl rfl⟩
    | permanent | transient => exact .inl ⟨.inr rfl, .inr rfl⟩
  case h_9 | h_19 | h_25 =>
    obtain ⟨_, -, same⟩ := Option.map_eq_some_iff.1 h
    cases same
    exact .inl ⟨.inr rfl, .inl rfl⟩
  case h_10 => cases h; exact .inl ⟨.inr rfl, .inl rfl⟩
  case h_15 =>
    split at h
    · cases h
      exact .inl ⟨.inl rfl, .inl rfl⟩
    · rename_i o found
      split at h
      · cases h
        split
        · rename_i status
          exact .inr (.submitted found rfl status)
        · exact .inl ⟨.inl rfl, .inl rfl⟩
      · cases h
  case h_20 =>
    split at h <;> cases h
    exact .inl ⟨.inr rfl, .inl rfl⟩
  case h_23 order txHash cls =>
    cases h
    cases cls with
    | already_processed => exact .inl ⟨.inr rfl, .inl rfl⟩
    | permanent | paused | transient => exact .inl ⟨.inl rfl, .inl rfl⟩
  case h_29 => cases h; exact .inl ⟨handles_thrown, works_thrown⟩
  case h_31 =>
    left
    cases phaseMove h with
    | @release b tickets reason loop => cases loop <;> exact ⟨.inr rfl, .inr rfl⟩
    | succeed => exact ⟨.inl rfl, .inl rfl⟩
    | _ => exact ⟨.inr rfl, .inr rfl⟩
  case h_32 => cases h
  all_goals
    cases h
    exact .inl ⟨.inl rfl, .inl rfl⟩

/-- The tickets of the order that a process has read are rows of the order. -/
theorem order_procStep (stays : Stays s.db s'.db) (h : procStep keccak256 s p call = some (s', p'))
    (read : ∀ order, p.order? = some order → Mine s.db order.hash order.tickets) {order : OrderRead}
    (ho : p'.order? = some order) : Mine s'.db order.hash order.tickets := by
  refine Mine.stays ?_ stays
  cases procMove h with
  | leave leaving =>
    rw [order_leaving leaving] at ho
    cases ho
  | throw => exact read _ (thrown_order ho)
  | phase move => exact read _ (congrArg some (phaseMove_order move ho))
  | lastWrite | lockTaken => cases ho
  | read found rows | confirmerRead found rows =>
    cases ho
    exact mine_of_returned rows fun t _ own => beq_iff_eq.1 own
  | _ => exact read _ ho

/-- A job is about to give its order up for good when its error has been taken for permanent. -/
theorem failing_procStep {hash : Bytes32} {reason : String}
    (h : procStep keccak256 s p call = some (s', .failing hash true reason)) :
    s' = s ∧ ∃ order, p = .catching order ∧ order.hash = hash ∧ call = .classify (.permanent reason) := by
  unfold procStep at h
  split at h
  case h_1 | h_15 =>
    split at h
    · cases h
    · split at h
      · split at h <;> cases h
      · cases h
  case h_2 | h_4 | h_6 =>
    split at h <;> cases h
  case h_7 order cls =>
    cases cls <;> cases h
    exact ⟨rfl, order, rfl, rfl, rfl⟩
  case h_9 | h_19 | h_25 =>
    obtain ⟨_, -, same⟩ := Option.map_eq_some_iff.1 h
    cases same
  case h_20 => split at h <;> cases h
  case h_23 order txHash cls => cases cls <;> cases h
  case h_29 =>
    obtain ⟨-, thrown⟩ := Prod.mk.inj (Option.some.inj h)
    cases p <;> cases thrown
  case h_31 =>
    generalize is : Proc.failing hash true reason = q at h
    cases phaseMove h with
    | @release b tickets reason loop => cases loop <;> cases is
    | _ => cases is
  all_goals cases h

end Calls

/-! ## One process at each order -/

/-- Nothing is abandoned, and nothing is about to be. -/
structure Tended (s : State) : Prop where
  honoured : Honoured s.db
  hashes : (s.db.relayOrders.map (·.hash)).Nodup
  reads : ∀ p ∈ s.procs, ∀ order, p.order? = some order → Mine s.db order.hash order.tickets
  alone : ∀ (i j : Nat) p q hash, s.procs[i]? = some p → s.procs[j]? = some q → p.works = some hash →
    q.handles = some hash → i = j
  failed : ∀ o ∈ s.db.relayOrders, o.status = .FAILED_PERMANENT → ∀ p ∈ s.procs, p.works ≠ some o.hash
  submitted : ∀ o ∈ s.db.relayOrders, o.status = .BASE_SUBMITTED → boughtOne s.db o.hash = false ∧
    ∀ p ∈ s.procs, p.works ≠ some o.hash
  failing : ∀ hash reason, .failing hash true reason ∈ s.procs → boughtOne s.db hash = false

section Steps

variable {keccak256 : String → Bytes32} {s s' : State}

theorem mem_statuses {db : Db} {o : RelayOrder} (ho : o ∈ db.relayOrders) :
    (o.hash, o.status) ∈ statuses db := List.mem_map_of_mem ho

/-- An order that can be locked is the only one of its hash. -/
theorem status_of_lock (hashes : (s.db.relayOrders.map (·.hash)).Nodup) {o : RelayOrder}
    (ho : o ∈ s.db.relayOrders) (found : lockCount s.db o.hash ≠ 0) : o.status ∈ RELAYABLE := by
  obtain ⟨o', ho'⟩ := List.exists_mem_of_length_pos (Nat.pos_of_ne_zero found)
  obtain ⟨ho', is⟩ := List.mem_filter.1 ho'
  rw [Bool.and_eq_true, beq_iff_eq, List.contains_iff_mem] at is
  obtain rfl : o' = o := List.inj_on_of_nodup_map hashes ho' ho is.1
  exact is.2

theorem status_of_finalizable (hashes : (s.db.relayOrders.map (·.hash)).Nodup) {o : RelayOrder}
    (ho : o ∈ s.db.relayOrders) (open? : finalizable s.db o.hash = true) : o.status ∈ FINALIZABLE := by
  obtain ⟨o', ho', is⟩ := List.any_eq_true.1 open?
  rw [Bool.and_eq_true, beq_iff_eq, List.contains_iff_mem] at is
  obtain rfl : o' = o := List.inj_on_of_nodup_map hashes ho' ho is.1
  exact is.2

/-- The tickets that a call stamps are of the order that the process handles, which it works on or may
still finalize. -/
theorem Tended.stamps_own (h : Tended s) (owned : Owned s) {p : Proc} (hp : p ∈ s.procs) {call : Call}
    {pair : ChunkTicket × NftId} (stamp : pair ∈ p.stamps s.db call) {t : Ticket} (ht : t ∈ s.db.tickets)
    (id : pair.1.id = t.id) : p.handles = some t.orderHash ∧ (p.works = some t.orderHash ∨
      p.writes call = some (t.orderHash, FINALIZABLE, .SUCCESS) ∧
        finalizable s.db t.orderHash = true) := by
  unfold Proc.stamps at stamp
  split at stamp
  · rename_i order round b tickets txHash ticketIds loop
    have mine := (owned.jobs _ _ _ hp).inHand pair.1 (List.mem_append_left _ (List.of_mem_zip stamp).1)
    rw [order_of_mine owned.ticketIds mine ht id.symm]
    exact ⟨rfl, .inl rfl⟩
  · rename_i order txHash ticketIds round
    split at stamp
    · rename_i open?
      have mine := h.reads _ hp order rfl pair.1 (List.of_mem_zip stamp).1
      rw [order_of_mine owned.ticketIds mine ht id.symm]
      exact ⟨rfl, .inr ⟨rfl, open?⟩⟩
    · cases stamp
  · cases stamp

/-- No call both gives an order up and stamps tickets. -/
theorem stamps_of_fails {db : Db} {p : Proc} {call : Call} {given : Bytes32 × List OrderStatus}
    (h : p.fails call = some given) : p.stamps db call = [] := by
  unfold Proc.fails at h
  split at h
  · rfl
  · rfl
  · cases h

/-- The process that gives an order up for good has ended. -/
theorem works_of_fails {p p' : Proc} {call : Call} {given : Bytes32 × List OrderStatus} {s₁ : State}
    (fails : p.fails call = some given) (move : procStep keccak256 s p call = some (s₁, p')) :
    p'.works = none ∧ p.thrown.works = none := by
  unfold Proc.fails at fails
  split at fails
  · cases move
    exact ⟨rfl, rfl⟩
  · cases move
    exact ⟨rfl, rfl⟩
  · cases fails

/-- The order that a call gives up has no ticket with an NFT, and nobody else works on it. -/
theorem Tended.of_fails (h : Tended s) {i : Nat} {p : Proc} (here : s.procs[i]? = some p) {call : Call}
    {hash : Bytes32} {found : List OrderStatus} (fails : p.fails call = some (hash, found)) {o : RelayOrder}
    (ho : o ∈ s.db.relayOrders) (own : o.hash = hash) (status : o.status ∈ found) :
    boughtOne s.db hash = false ∧ ∀ (j : Nat) q, s.procs[j]? = some q → j ≠ i → q.works ≠ some hash := by
  unfold Proc.fails at fails
  split at fails
  · cases fails
    refine ⟨h.failing _ _ (List.mem_of_getElem? here), fun j q hq other works => ?_⟩
    exact other (h.alone j i q _ hash hq here works rfl)
  · cases fails
    obtain ⟨none, nobody⟩ := h.submitted o ho (List.mem_singleton.1 status)
    rw [own] at none nobody
    exact ⟨none, fun j q hq _ => nobody q (List.mem_of_getElem? hq)⟩
  · cases fails

theorem boughtOne_eq_false {db : Db} {hash : Bytes32} : boughtOne db hash = false ↔
    ∀ t ∈ db.tickets, t.orderHash = hash → t.megapotNftId = none := by
  rw [Bool.eq_false_iff, ne_eq, boughtOne_iff]
  constructor
  · exact fun none t ht own => by_contra fun bought => none ⟨t, ht, own, bought⟩
  · rintro all ⟨t, ht, own, bought⟩
    exact bought (all t ht own)

/-- A call leaves no order in BASE_SUBMITTED that was not there, and none that it finalizes. -/
theorem submitted_before {p p' : Proc} {call : Call} (move : procStep keccak256 s p call = some (s', p'))
    {o' : RelayOrder} (ho' : o' ∈ s'.db.relayOrders) (status : o'.status = .BASE_SUBMITTED) :
    (∃ o ∈ s.db.relayOrders, o.hash = o'.hash ∧ o.status = .BASE_SUBMITTED) ∧
      p.writes call ≠ some (o'.hash, FINALIZABLE, .SUCCESS) := by
  have row := mem_statuses ho'
  rw [statuses_procStep move, status] at row
  obtain ⟨⟨hash, old⟩, row, same⟩ := List.mem_map.1 row
  obtain ⟨rfl, now⟩ := Prod.mk.inj same
  obtain ⟨o, ho, is⟩ := List.mem_map.1 row
  obtain ⟨own, rfl⟩ := Prod.mk.inj is
  have was : o.status = .BASE_SUBMITTED := by
    rcases rewritten_eq (p.writes call) o'.hash o.status with kept | ⟨found, left, write, -, is⟩
    · exact kept.symm.trans now
    · exact absurd (is.symm.trans now) (writes_left write)
  refine ⟨⟨o, ho, own, was⟩, fun write => ?_⟩
  have finalizable : OrderStatus.BASE_SUBMITTED ∈ FINALIZABLE := by decide
  rw [write, was, rewritten, if_pos ⟨rfl, finalizable⟩] at now
  cases now

section Call

variable {i : Nat} {p p' : Proc} {call : Call}

/-- The orders that nobody works on are the ones a job may lock. -/
theorem Tended.lock (h : Tended s) {hash : Bytes32} (found : lockCount s.db hash ≠ 0) {o : RelayOrder}
    (ho : o ∈ s.db.relayOrders) (own : o.hash = hash) :
    o.status ≠ .FAILED_PERMANENT ∧ o.status ≠ .BASE_SUBMITTED := by
  subst own
  have lockable := status_of_lock h.hashes ho found
  constructor
  all_goals
    intro status
    rw [status] at lockable
    revert lockable
    decide

theorem Tended.honoured_call (h : Tended s) (owned : Owned s) (here : s.procs[i]? = some p)
    (move : procStep keccak256 s p call = some (s', p')) : Honoured s'.db := by
  have hp := List.mem_of_getElem? here
  have effect := procStep_effect move
  intro t' ht' bought' o' ho' own' failed'
  obtain ⟨t, ht, row⟩ := effect.rows t' ht'
  obtain ⟨o, ho, rule⟩ := effect.orders o' ho'
  have own : o.hash = t.orderHash := by
    rw [← rule.hash, own', row.order]
  rcases rule.failed failed' with failed | ⟨found, fails, status⟩
  · -- the order had been given up before the call: nobody works on it, and it cannot be finalized
    rcases row.stamp with same | ⟨pair, stamp, id, -⟩
    · exact h.honoured t ht (same ▸ bought') o ho own failed
    · rcases (h.stamps_own owned hp stamp ht id).2 with works | ⟨-, open?⟩
      · exact h.failed o ho failed p hp (own ▸ works)
      · have finalizable := status_of_finalizable h.hashes ho (own ▸ open?)
        rw [failed] at finalizable
        revert finalizable
        decide
  · -- the call gives it up
    have none := boughtOne_eq_false.1 (h.of_fails here fails ho rfl status).1 t ht own.symm
    rcases row.stamp with same | ⟨pair, stamp, -⟩
    · exact bought' (same.trans none)
    · rw [stamps_of_fails fails] at stamp
      cases stamp

/-- The tickets of an order that only this process handles, if any does, are as they were. -/
theorem Tended.unbought_call (h : Tended s) (owned : Owned s) (here : s.procs[i]? = some p)
    (move : procStep keccak256 s p call = some (s', p')) {hash : Bytes32}
    (none : boughtOne s.db hash = false)
    (other : p.handles = some hash → p.works ≠ some hash ∧
      p.writes call ≠ some (hash, FINALIZABLE, .SUCCESS)) : boughtOne s'.db hash = false := by
  rw [boughtOne_eq_false] at none ⊢
  intro t' ht' own'
  obtain ⟨t, ht, row⟩ := (procStep_effect move).rows t' ht'
  have own : t.orderHash = hash := row.order.symm.trans own'
  rcases row.stamp with same | ⟨pair, stamp, id, -⟩
  · exact same.trans (none t ht own)
  · obtain ⟨handles, either⟩ := h.stamps_own owned (List.mem_of_getElem? here) stamp ht id
    rw [own] at handles either
    obtain ⟨idle, unwritten⟩ := other handles
    rcases either with works | ⟨write, -⟩
    · exact absurd works idle
    · exact absurd write unwritten

/-- What is left of a process when its answer is lost, or comes. -/
theorem handles_call (lost : Bool) (move : procStep keccak256 s p call = some (s', p')) :
    ((if lost then p.thrown else p').handles = none ∨
        (if lost then p.thrown else p').handles = p.handles) ∧
      ((if lost then p.thrown else p').works = none ∨ (if lost then p.thrown else p').works = p.works) ∨
    TakesUp s p call (if lost then p.thrown else p') := by
  cases lost with
  | true => exact .inl ⟨handles_thrown, works_thrown⟩
  | false => exact handles_procStep move

/-- An order that could not be locked is worked on by those who did before. -/
theorem Tended.idle_call (h : Tended s) (hp : p ∈ s.procs)
    (held : (p'.handles = none ∨ p'.handles = p.handles) ∧ (p'.works = none ∨ p'.works = p.works) ∨
      TakesUp s p call p') {o : RelayOrder} (ho : o ∈ s.db.relayOrders)
    (status : o.status = .FAILED_PERMANENT ∨ o.status = .BASE_SUBMITTED)
    (nobody : ∀ q ∈ s.procs, q.works ≠ some o.hash) : ∀ q ∈ s.procs.set i p', q.works ≠ some o.hash := by
  intro q hq works
  rcases List.mem_or_eq_of_mem_set hq with old | rfl
  · exact nobody q old works
  · rcases held with ⟨-, none | same⟩ | taken
    · rw [none] at works
      cases works
    · exact nobody p hp (same ▸ works)
    · cases taken with
      | lock found =>
        have := h.lock found ho (Option.some.inj works).symm
        exact status.elim this.1 this.2
      | submitted => cases works

/-- No two processes are at one order, since the one that takes an order up finds nobody there: a job by
the condition on locks, the confirmer by the order's status. -/
theorem Tended.alone_call (h : Tended s) (here : s.procs[i]? = some p) {lost : Bool}
    (ok : abandonSafe s (.call i call lost) = true)
    (held : (p'.handles = none ∨ p'.handles = p.handles) ∧ (p'.works = none ∨ p'.works = p.works) ∨
      TakesUp s p call p') (j k : Nat) (q r : Proc) (hash : Bytes32)
    (hq : (s.procs.set i p')[j]? = some q) (hr : (s.procs.set i p')[k]? = some r)
    (works : q.works = some hash) (handles : r.handles = some hash) : j = k := by
  rcases Table.of_getElem?_set hq with ⟨rfl, rfl⟩ | ⟨other, old⟩ <;>
    rcases Table.of_getElem?_set hr with ⟨rfl, rfl⟩ | ⟨other', old'⟩
  · rfl
  · rcases held with ⟨-, none | same⟩ | taken
    · rw [none] at works
      cases works
    · exact h.alone _ _ p r hash here old' (same ▸ works) handles
    · cases taken with
      | @lock order round found =>
        simp only [abandonSafe, here, Option.all_some, List.all_eq_true, bne_iff_ne] at ok
        exact absurd (handles.trans works.symm) (ok r (List.mem_of_getElem? old'))
      | submitted => cases works
  · rcases held with ⟨none | same, -⟩ | taken
    · rw [none] at handles
      cases handles
    · exact h.alone _ _ q p hash old here works (same ▸ handles)
    · cases taken with
      | @lock order round found =>
        simp only [abandonSafe, here, Option.all_some, List.all_eq_true, bne_iff_ne] at ok
        exact absurd ((handles_of_works works).trans handles.symm) (ok q (List.mem_of_getElem? old))
      | submitted found own status =>
        have nobody := (h.submitted _ (Table.mem_of_findUnique found) status).2 q (List.mem_of_getElem? old)
        rw [Table.key_of_findUnique found] at nobody
        exact absurd (works.trans (handles.symm.trans (congrArg some own))) nobody
  · exact h.alone j k q r hash old old' works handles

end Call

/-- **The rule of a call**: where every permanent error is one of an order without a confirmed chunk, and
every lock is taken of an order that no other process handles, all orders stay tended. -/
theorem Tended.call (h : Tended s) (owned : Owned s) {i : Nat} {call : Call} {lost : Bool} {p p' : Proc}
    (here : s.procs[i]? = some p)
    (ok : abandonSafe s (.call i call lost) = true)
    (move : procStep keccak256 s p call = some (s', p')) :
    Tended { s' with procs := s.procs.set i (if lost then p.thrown else p') } := by
  have hp := List.mem_of_getElem? here
  have effect := procStep_effect move
  have stays := owned.stays move
  have held := handles_call lost move
  have ended : ∀ given, p.fails call = some given → (if lost then p.thrown else p').works = none := by
    intro given fails
    cases lost with
    | true => exact (works_of_fails fails move).2
    | false => exact (works_of_fails fails move).1
  have reads : ∀ order, (if lost then p.thrown else p').order? = some order →
      Mine s'.db order.hash order.tickets := by
    cases lost with
    | true => exact fun order ho => (h.reads p hp order (thrown_order ho)).stays stays
    | false => exact fun order ho => order_procStep stays move (h.reads p hp) ho
  have given : ∀ hash reason, (if lost then p.thrown else p') = .failing hash true reason →
      boughtOne s'.db hash = false := by
    intro hash reason is
    cases lost with
    | true => cases p <;> cases is
    | false =>
      rw [if_neg Bool.false_ne_true] at is
      rw [is] at move
      obtain ⟨rfl, order, rfl, rfl, rfl⟩ := failing_procStep move
      simpa [abandonSafe, here] using ok
  generalize (if lost then p.thrown else p') = p'' at held ended reads given ⊢
  constructor
  case honoured =>
    have honoured : Honoured s'.db := h.honoured_call owned here move
    exact honoured
  case hashes =>
    rw [effect.hashes]
    exact h.hashes
  case reads =>
    intro q hq order ho
    rcases List.mem_or_eq_of_mem_set hq with old | rfl
    · exact (h.reads q old order ho).stays stays
    · exact reads order ho
  case alone => exact h.alone_call here ok held
  case failed =>
    intro o' ho' failed'
    obtain ⟨o, ho, rule⟩ := effect.orders o' ho'
    rw [rule.hash]
    rcases rule.failed failed' with failed | ⟨found, fails, status⟩
    · exact h.idle_call hp held ho (.inl failed) (h.failed o ho failed)
    · intro q hq works
      obtain ⟨j, hq⟩ := List.getElem?_of_mem hq
      rcases Table.of_getElem?_set hq with ⟨-, rfl⟩ | ⟨other, old⟩
      · rw [ended _ fails] at works
        cases works
      · exact (h.of_fails here fails ho rfl status).2 j q old other works
  case submitted =>
    intro o' ho' status'
    obtain ⟨⟨o, ho, own, status⟩, unwritten⟩ := submitted_before move ho' status'
    obtain ⟨none, nobody⟩ := h.submitted o ho status
    rw [← own] at unwritten ⊢
    exact ⟨h.unbought_call owned here move none fun _ => ⟨nobody p hp, unwritten⟩,
      h.idle_call hp held ho (.inr status) nobody⟩
  case failing =>
    intro hash reason hq
    rcases List.getElem?_of_mem hq with ⟨j, hq⟩
    rcases Table.of_getElem?_set hq with ⟨-, is⟩ | ⟨other, old⟩
    · exact given hash reason is.symm
    · refine h.unbought_call owned here move (h.failing hash reason (List.mem_of_getElem? old)) fun handles => ?_
      exact absurd (h.alone j i _ p hash old here rfl handles) other

/-- A process that has just started handles nothing. -/
theorem Tended.start (h : Tended s) {p : Proc} (idle : p.handles = none) (unread : p.order? = none) :
    Tended { s with procs := s.procs ++ [p] } := by
  have free : p.works = none := by
    by_contra some
    obtain ⟨hash, works⟩ := Option.ne_none_iff_exists'.1 some
    rw [handles_of_works works] at idle
    cases idle
  have old : ∀ {j : Nat} {q : Proc}, (s.procs ++ [p])[j]? = some q → q.handles ≠ none → s.procs[j]? = some q := by
    intro j q hq some
    rcases Table.of_getElem?_concat hq with old | ⟨-, rfl⟩
    · exact old
    · exact absurd idle some
  have nobody : ∀ {hash : Bytes32}, (∀ q ∈ s.procs, q.works ≠ some hash) →
      ∀ q ∈ s.procs ++ [p], q.works ≠ some hash := by
    intro hash nobody q hq works
    rcases List.mem_append.1 hq with old | new
    · exact nobody q old works
    · rw [List.mem_singleton.1 new, free] at works
      cases works
  constructor
  case honoured => exact h.honoured
  case hashes => exact h.hashes
  case reads =>
    intro q hq order ho
    rcases List.mem_append.1 hq with old | new
    · exact h.reads q old order ho
    · rw [List.mem_singleton.1 new, unread] at ho
      cases ho
  case alone =>
    intro i j q r hash hq hr works handles
    refine h.alone i j q r hash (old hq ?_) (old hr ?_) works handles
    · rw [handles_of_works works]
      exact Option.some_ne_none _
    · rw [handles]
      exact Option.some_ne_none _
  case failed => exact fun o ho status => nobody (h.failed o ho status)
  case submitted =>
    intro o ho status
    obtain ⟨none, free⟩ := h.submitted o ho status
    exact ⟨none, nobody free⟩
  case failing =>
    intro hash reason hq
    rcases List.mem_append.1 hq with old | new
    · exact h.failing hash reason old
    · rw [← List.mem_singleton.1 new] at idle
      cases idle

theorem Tended.requeue (h : Tended s) : Tended { s with db := requeueDeferred s.db } := by
  have before : ∀ {o' : RelayOrder} {status : OrderStatus}, o' ∈ (requeueDeferred s.db).relayOrders →
      o'.status = status → status ≠ .QUEUED → o' ∈ s.db.relayOrders := by
    rintro o' status ho' is other
    obtain ⟨o, ho, rfl⟩ := Table.mem_updateMany.1 ho'
    split at is
    · exact absurd is.symm other
    · rename_i kept
      rwa [if_neg kept]
  have hashes : (requeueDeferred s.db).relayOrders.map (·.hash) = s.db.relayOrders.map (·.hash) :=
    Table.map_updateMany _ fun _ _ _ => rfl
  constructor
  case honoured =>
    intro t ht bought o ho own failed
    exact h.honoured t ht bought o (before ho failed (by decide)) own failed
  case hashes =>
    rw [hashes]
    exact h.hashes
  case reads => exact h.reads
  case alone => exact h.alone
  case failed => exact fun o ho status => h.failed o (before ho status (by decide)) status
  case submitted => exact fun o ho status => h.submitted o (before ho status (by decide)) status
  case failing => exact h.failing

theorem Tended.step (h : Tended s) (owned : Owned s) {a : Action} (ok : abandonSafe s a = true)
    (hs : step keccak256 s a = some s') : Tended s' := by
  cases stepMove hs with
  | job | confirm | reset => exact h.start rfl rfl
  | requeue => exact h.requeue
  | call here move => exact h.call owned here ok move
  | mine | revert | rollover =>
    exact ⟨h.honoured, h.hashes, h.reads, h.alone, h.failed, h.submitted, h.failing⟩

theorem Tended.initial (hi : Initial keccak256 s) : Tended s where
  honoured t ht bought := absurd (hi.unstamped t ht) bought
  hashes := hi.orderHashes
  reads p hp := by
    rw [hi.noProcs] at hp
    exact absurd hp List.not_mem_nil
  alone i j p q hash hp := by
    rw [hi.noProcs] at hp
    cases hp
  failed o ho status p hp := by
    rw [hi.noProcs] at hp
    exact absurd hp List.not_mem_nil
  submitted o ho status := by
    refine ⟨boughtOne_eq_false.2 fun t ht _ => hi.unstamped t ht, fun p hp => ?_⟩
    rw [hi.noProcs] at hp
    exact absurd hp List.not_mem_nil
  failing hash reason hp := by
    rw [hi.noProcs] at hp
    exact absurd hp List.not_mem_nil

end Steps

/-- **Relayed tickets are not abandoned** along every run in which errors are taken for permanent only
while none of their order's chunks is confirmed, and orders are locked only while no other process handles
them. -/
theorem not_abandoned {keccak256 : String → Bytes32} {s : State}
    (h : (machine keccak256).ReachableBy (fun s a => abandonSafe s a = true) s) : Honoured s.db := by
  have both : Owned s ∧ Tended s := h.invariant (I := fun s => Owned s ∧ Tended s)
    (fun _ hi => ⟨.initial hi, .initial hi⟩)
    fun _ _ _ both ok hs => ⟨both.1.step hs, both.2.step both.1 ok hs⟩
  exact both.2.honoured

/-- What is lost: the ticket of an abandoned order is of no epoch, so that neither settlement nor
harvest selects it. -/
theorem ofEpoch_of_failed {db : Db} (unique : (db.relayOrders.map (·.hash)).Nodup) {t : Ticket}
    {o : RelayOrder} (ho : o ∈ db.relayOrders) (own : o.hash = t.orderHash)
    (failed : o.status = .FAILED_PERMANENT) (megapotId : Nat) : db.ofEpoch megapotId t = false := by
  rw [Bool.eq_false_iff]
  intro of
  obtain ⟨o', ho', own', -, success⟩ := Db.ofEpoch_iff.1 of
  obtain rfl : o' = o := List.inj_on_of_nodup_map unique ho' ho (own'.trans own.symm)
  rw [failed] at success
  cases success

/-- The first chunk is bought and confirmed; the broadcast of the second fails in this way. -/
def secondFails (cls : RevertClass) : List Action :=
  lockJob 0 1 twoChunks ++ [.call 0 (.findStuck []) false] ++ sendChunk 0 twoChunks "b" "0x1" ++
    [.call 0 .write false, .mine "0x1" (List.range 15)] ++
    ([.receipt (some true), .write, .create "c", .write, .throw, .classify cls, .write].map
      fun call => .call 0 call false)

/-- The fifteen tickets of the first chunk are abandoned with the sixteenth. -/
theorem first_chunk_abandoned : ¬ ∀ (keccak256 : String → Bytes32) (s : State),
    (machine keccak256).Reachable s → Honoured s.db := by
  intro all
  obtain ⟨s, hs, hp⟩ := Machine.exists_reachable_of_run (M := machine id) initial_twoChunks
    (secondFails (.permanent "InvalidBonusball"))
    (fun s => s.db.tickets.any fun t => t.megapotNftId.isSome && s.db.relayOrders.any fun o =>
      o.hash == t.orderHash && o.status == .FAILED_PERMANENT) (by decide +kernel)
  simp only [List.any_eq_true, Bool.and_eq_true, beq_iff_eq, Option.isSome_iff_ne_none] at hp
  obtain ⟨t, ht, bought, o, ho, own, failed⟩ := hp
  exact all id s hs t ht bought o ho own failed

/-- A failure that is not for good leaves the order, with what has been bought, to be retried. -/
theorem not_abandoned_retried : ∃ s : State, (s.db.tickets.countP (·.megapotNftId.isSome) = 15 ∧
    ∀ o ∈ s.db.relayOrders, o.status = .RETRY_PENDING) ∧ Honoured s.db := by
  obtain ⟨s, hs, hp⟩ := Machine.exists_reachableBy_of_runBy (M := machine id) abandonSafe
    initial_twoChunks (secondFails (.transient "timeout"))
    (fun s => s.db.tickets.countP (·.megapotNftId.isSome) == 15 &&
      s.db.relayOrders.all fun o => o.status == .RETRY_PENDING) (by decide +kernel)
  simp only [Bool.and_eq_true, beq_iff_eq, List.all_eq_true] at hp
  exact ⟨s, hp, not_abandoned hs⟩

end LordsPot.Relay
