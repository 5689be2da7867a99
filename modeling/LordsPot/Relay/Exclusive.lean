import LordsPot.Relay.Owners

/-!
# One job at a time

The update that sets PROCESSING is a lock: it counts the orders it finds RELAYABLE, and a job that
finds none gives up. It holds as long as nobody sets the order's status over the head of the job that
has it. The deferral and the underfunding of another job, which were decided before the lock was taken,
and the reconciler's reset name the order by its hash only and do just that.
-/

namespace LordsPot.Relay

open Transition

/-- The order a job has locked: inside its `try`, its `catch`, or a recovery. -/
def Proc.holds : Proc → Option Bytes32
  | .relaying order _ _ | .catching order | .findingOrder order | .readingRound order _ _
  | .finalizing order _ _ _ => some order.hash
  | .stranding hash | .pausing hash _ | .failing hash _ _ => some hash
  | _ => none

/-- The confirmer at an order in BASE_SUBMITTED. -/
def Proc.confirms : Proc → Bool
  | .submitted .. | .vanishing _ | .confirmerClassifying .. | .confirmerFinding _ | .bouncing ..
  | .rejecting .. => true
  | _ => false

/-- The order whose status a call writes, the statuses it may find there, and the one it leaves. -/
def Proc.writes : Proc → Call → Option (Bytes32 × List OrderStatus × OrderStatus)
  | .locking order _, .lock => some (order.hash, RELAYABLE, .PROCESSING)
  | .deferring hash, .write => some (hash, ANY, .DEFERRED)
  | .underfunded hash _ _, .write => some (hash, ANY, .RETRY_PENDING)
  | .relaying order _ (.succeeding _), .write => some (order.hash, ANY, .SUCCESS)
  | .finalizing order _ _ _, .write => some (order.hash, FINALIZABLE, .SUCCESS)
  | .stranding hash, .write => some (hash, [.PROCESSING], .RETRY_PENDING)
  | .pausing hash _, .write => some (hash, [.PROCESSING], .DEFERRED)
  | .failing hash isPermanent _, .write =>
      some (hash, ANY, if isPermanent then .FAILED_PERMANENT else .RETRY_PENDING)
  | .bouncing hash _, .write => some (hash, [.BASE_SUBMITTED], .RETRY_PENDING)
  | .rejecting hash _, .write => some (hash, [.BASE_SUBMITTED], .FAILED_PERMANENT)
  | .resetting hash, .write => some (hash, ANY, .RETRY_PENDING)
  | _, _ => none

/-- What a write makes of a status. -/
def rewritten (write : Option (Bytes32 × List OrderStatus × OrderStatus)) (hash : Bytes32)
    (status : OrderStatus) : OrderStatus :=
  match write with
  | none => status
  | some (h, found, left) => if hash = h ∧ status ∈ found then left else status

/-- The orders, each with its status. -/
def statuses (db : Db) : List (Bytes32 × OrderStatus) := db.relayOrders.map fun o => (o.hash, o.status)

section Calls

variable {keccak256 : String → Bytes32} {s s' : State} {p p' : Proc} {call : Call}

theorem statuses_updateOrder {db : Db} {hash : Bytes32} {found : List OrderStatus} {left : OrderStatus}
    {f : RelayOrder → RelayOrder} (keep : ∀ o, (f o).hash = o.hash) (sets : ∀ o, (f o).status = left) :
    statuses (updateOrder db hash found f) =
      (statuses db).map fun e => (e.1, rewritten (some (hash, found, left)) e.1 e.2) := by
  rw [statuses, statuses, updateOrder, Table.updateMany, List.map_map, List.map_map]
  refine List.map_congr_left fun o _ => ?_
  simp only [Function.comp_apply, rewritten]
  by_cases here : o.hash = hash ∧ o.status ∈ found
  · rw [if_pos here, if_pos (by simpa using here), keep, sets]
  · rw [if_neg here, if_neg (by simpa using here)]

/-- Nothing is written when no order is there to be finalized. -/
theorem statuses_finalizeOrderSuccess (db : Db) (hash : Bytes32) (tickets : List ChunkTicket)
    (txHash : TxHash) (ticketIds : List NftId) (round : Option Nat) :
    statuses (finalizeOrderSuccess db hash tickets txHash ticketIds round) =
      (statuses db).map fun e => (e.1, rewritten (some (hash, FINALIZABLE, .SUCCESS)) e.1 e.2) := by
  unfold finalizeOrderSuccess
  split
  · exact statuses_updateOrder (fun _ => rfl) fun _ => rfl
  · rename_i none
    refine ((List.map_congr_left fun e he => ?_).trans (List.map_id _)).symm
    obtain ⟨o, ho, rfl⟩ := List.mem_map.1 he
    refine Prod.ext rfl (if_neg fun here => none ?_)
    exact List.any_eq_true.2 ⟨o, ho, by simpa using here⟩

theorem statuses_quiet {db : Db} (write : p.writes call = none) :
    statuses db = (statuses db).map fun e => (e.1, rewritten (p.writes call) e.1 e.2) := by
  rw [write]
  exact (List.map_id _).symm

/-- A call that throws or does not come back writes nothing. -/
theorem writes_throw (p : Proc) : p.writes .throw = none ∧ p.writes .crash = none := by
  cases p with
  | relaying order round phase => cases phase <;> exact ⟨rfl, rfl⟩
  | _ => exact ⟨rfl, rfl⟩

/-- Inside its `try` a job writes its order's status at the end only. -/
theorem statuses_phaseStep {order : OrderRead} {round : Nat} {phase : Phase}
    (h : phaseStep keccak256 s order round phase call = some (s', p')) :
    statuses s'.db = (statuses s.db).map fun e =>
      (e.1, rewritten ((Proc.relaying order round phase).writes call) e.1 e.2) := by
  unfold phaseStep at h
  split at h
  case h_17 =>
    cases h
    exact statuses_updateOrder (fun _ => rfl) fun _ => rfl
  all_goals try (cases h; exact statuses_quiet rfl)
  case h_1 | h_4 | h_10 | h_12 | h_14 | h_16 =>
    split at h <;> cases h
    exact statuses_quiet rfl
  case h_3 | h_7 =>
    obtain ⟨_, -, same⟩ := Option.map_eq_some_iff.1 h
    cases same
    exact statuses_quiet rfl
  case h_18 => cases h

/-- **The statuses after a call** are those before it, but for what the call writes. -/
theorem statuses_procStep (h : procStep keccak256 s p call = some (s', p')) :
    statuses s'.db = (statuses s.db).map fun e => (e.1, rewritten (p.writes call) e.1 e.2) := by
  unfold procStep at h
  split at h
  case h_3 | h_5 | h_6 | h_12 | h_13 | h_14 | h_26 | h_27 | h_28 =>
    cases h
    exact statuses_updateOrder (fun _ => rfl) fun _ => rfl
  case h_11 => cases h; exact statuses_finalizeOrderSuccess ..
  case h_1 | h_15 =>
    split at h
    · cases h
      exact statuses_quiet rfl
    · split at h <;> cases h
      exact statuses_quiet rfl
  case h_9 | h_19 | h_25 =>
    obtain ⟨_, -, same⟩ := Option.map_eq_some_iff.1 h
    cases same
    exact statuses_quiet rfl
  case h_20 =>
    split at h <;> cases h
    exact statuses_quiet rfl
  case h_29 => cases h; exact statuses_quiet (writes_throw p).1
  case h_30 => cases h; exact statuses_quiet (writes_throw p).2
  case h_31 => exact statuses_phaseStep h
  case h_32 => cases h
  all_goals
    cases h
    exact statuses_quiet rfl

theorem holds_phaseStep {order : OrderRead} {round : Nat} {phase : Phase}
    (h : phaseStep keccak256 s order round phase call = some (s', p')) :
    p'.confirms = false ∧ (p'.holds = none ∨ p'.holds = some order.hash) := by
  cases phaseMove h with
  | @release b tickets reason loop => cases loop <;> exact ⟨rfl, .inr rfl⟩
  | succeed => exact ⟨rfl, .inl rfl⟩
  | _ => exact ⟨rfl, .inr rfl⟩

theorem holds_thrown (job : p.confirms = false) :
    p.thrown.confirms = false ∧ (p.thrown.holds = none ∨ p.thrown.holds = p.holds) := by
  cases p with
  | relaying => exact ⟨rfl, .inr rfl⟩
  | _ => exact ⟨rfl, .inl rfl⟩

/-- **What a job holds** it held before, unless the call is the lock and finds the order. -/
theorem holds_procStep (noneSubmitted : ∀ e ∈ statuses s.db, e.2 ≠ .BASE_SUBMITTED)
    (job : p.confirms = false) (h : procStep keccak256 s p call = some (s', p')) :
    p'.confirms = false ∧ (p'.holds = none ∨ p'.holds = p.holds ∨
      ∃ order round, p = .locking order round ∧ call = .lock ∧ lockCount s.db order.hash ≠ 0 ∧
        p'.holds = some order.hash) := by
  unfold procStep at h
  split at h
  case h_1 =>
    split at h
    · cases h
      exact ⟨rfl, .inl rfl⟩
    · split at h <;> cases h
      split <;> exact ⟨rfl, .inl rfl⟩
  case h_2 | h_4 =>
    cases h
    split <;> exact ⟨rfl, .inl rfl⟩
  case h_6 order round =>
    cases h
    split
    · exact ⟨rfl, .inl rfl⟩
    · rename_i found
      exact ⟨rfl, .inr (.inr ⟨order, round, rfl, rfl, found, rfl⟩)⟩
  case h_7 order cls =>
    cases h
    cases cls <;> exact ⟨rfl, .inr (.inl rfl)⟩
  case h_8 | h_10 => cases h; exact ⟨rfl, .inr (.inl rfl)⟩
  case h_9 =>
    obtain ⟨_, -, same⟩ := Option.map_eq_some_iff.1 h
    cases same
    exact ⟨rfl, .inr (.inl rfl)⟩
  case h_15 hash tickets =>
    split at h
    · cases h
      exact ⟨rfl, .inl rfl⟩
    · rename_i o found
      have other : o.status ≠ .BASE_SUBMITTED :=
        noneSubmitted (o.hash, o.status) (List.mem_map_of_mem (Table.mem_of_findUnique found))
      rw [if_neg other] at h
      split at h <;> cases h
      exact ⟨rfl, .inl rfl⟩
  case h_29 =>
    cases h
    exact (holds_thrown job).imp_right fun held => held.imp_right .inl
  case h_31 => exact (holds_phaseStep h).imp_right fun held => held.imp_right .inl
  case h_32 => cases h
  case h_16 | h_17 | h_18 | h_19 | h_20 | h_21 | h_22 | h_23 | h_24 | h_25 | h_26 | h_27 =>
    -- the confirmer is not at any order
    cases job
  all_goals
    cases h
    exact ⟨rfl, .inl rfl⟩

end Calls

/-! ## The lock -/

/-- A job's lock is in force. -/
def Locked (status : OrderStatus) : Prop := status = .PROCESSING ∨ status = .SUCCESS

/-- One job for each order, whose status is as that job has left it. -/
structure Exclusive (s : State) : Prop where
  hashes : ((statuses s.db).map (·.1)).Nodup
  noneSubmitted : ∀ e ∈ statuses s.db, e.2 ≠ .BASE_SUBMITTED
  jobs : ∀ p ∈ s.procs, p.confirms = false
  one : ∀ (i j : Nat) p q hash, s.procs[i]? = some p → s.procs[j]? = some q → p.holds = some hash →
    q.holds = some hash → i = j
  locked : ∀ p ∈ s.procs, ∀ hash, p.holds = some hash → ∀ status, (hash, status) ∈ statuses s.db →
    Locked status

/-- A write without a guard meets no order that another job holds. -/
def lockSafe (s : State) : Action → Bool
  | .call i call _ => s.procs[i]?.all fun p => (p.unguarded call).all fun (hash, _) =>
      p.holds == some hash || s.procs.all fun q => q.holds != some hash
  | _ => true

section Steps

variable {keccak256 : String → Bytes32} {s s' : State}

/-- A write that finds its order locked is one that the holder makes. -/
theorem Exclusive.lockedWrite {i : Nat} {call : Call} {lost : Bool} {p : Proc} (h : Exclusive s)
    (here : s.procs[i]? = some p) (ok : lockSafe s (.call i call lost) = true) {q : Proc} (hq : q ∈ s.procs)
    {hash : Bytes32} (held : q.holds = some hash) {found : List OrderStatus} {left status : OrderStatus}
    (write : p.writes call = some (hash, found, left)) (locked : Locked status) (mem : status ∈ found) :
    left = .SUCCESS ∨ p.holds = some hash ∧ p.thrown.holds = none ∧
      ∀ s₁ p', procStep keccak256 s p call = some (s₁, p') → p'.holds = none := by
  have overrides : ∀ status, p.unguarded call = some (hash, status) → p.holds ≠ none := by
    intro status unguarded none
    simp only [lockSafe, here, Option.all_some, unguarded, none] at ok
    have := List.all_eq_true.1 ok q hq
    simp [held] at this
  have unlocked : status ∉ RELAYABLE := by
    rcases locked with rfl | rfl <;> decide
  have job := h.jobs p (List.mem_of_getElem? here)
  cases p with
  | locking order round =>
    cases call <;> cases write
    exact absurd mem unlocked
  | deferring | underfunded | resetting =>
    cases call <;> cases write
    exact absurd rfl (overrides _ rfl)
  | relaying order round phase =>
    cases phase <;> cases call <;> cases write
    exact .inl rfl
  | finalizing =>
    cases call <;> cases write
    exact .inl rfl
  | stranding | pausing | failing =>
    cases call <;> cases write
    refine .inr ⟨rfl, rfl, fun s₁ p' move => ?_⟩
    cases move
    rfl
  | bouncing | rejecting => cases job
  | _ => cases call <;> cases write

/-- No call leaves an order in BASE_SUBMITTED. -/
theorem writes_left {p : Proc} {call : Call} {hash : Bytes32} {found : List OrderStatus}
    {left : OrderStatus} (write : p.writes call = some (hash, found, left)) : left ≠ .BASE_SUBMITTED := by
  unfold Proc.writes at write
  split at write
  case h_8 hash isPermanent reason => cases isPermanent <;> cases write <;> exact nofun
  all_goals
    cases write
    try exact nofun

theorem rewritten_eq (write : Option (Bytes32 × List OrderStatus × OrderStatus)) (hash : Bytes32)
    (status : OrderStatus) : rewritten write hash status = status ∨
      ∃ found left, write = some (hash, found, left) ∧ status ∈ found ∧
        rewritten write hash status = left := by
  unfold rewritten
  split
  · exact .inl rfl
  · rename_i h found left
    split
    · rename_i here
      exact .inr ⟨found, left, by rw [here.1], here.2, rfl⟩
    · exact .inl rfl

/-- An order that somebody can lock is one that nobody holds. -/
theorem Exclusive.unlocked (h : Exclusive s) {hash : Bytes32} (count : lockCount s.db hash ≠ 0) :
    ∃ status ∈ RELAYABLE, (hash, status) ∈ statuses s.db ∧ ∀ p ∈ s.procs, p.holds ≠ some hash := by
  obtain ⟨o, ho⟩ := List.exists_mem_of_length_pos (Nat.pos_of_ne_zero count)
  obtain ⟨ho, is⟩ := List.mem_filter.1 ho
  rw [Bool.and_eq_true, beq_iff_eq, List.contains_iff_mem] at is
  have row : (hash, o.status) ∈ statuses s.db := List.mem_map.2 ⟨o, ho, by rw [is.1]⟩
  refine ⟨o.status, is.2, row, fun p hp held => ?_⟩
  have relayable := is.2
  rcases h.locked p hp hash held o.status row with processing | success
  · rw [processing] at relayable
    revert relayable
    decide
  · rw [success] at relayable
    revert relayable
    decide

/-- What is left of a process when its answer is lost. -/
theorem holds_call {p p' : Proc} {call : Call} (lost : Bool)
    (noneSubmitted : ∀ e ∈ statuses s.db, e.2 ≠ .BASE_SUBMITTED) (job : p.confirms = false)
    (move : procStep keccak256 s p call = some (s', p')) :
    (if lost then p.thrown else p').confirms = false ∧
      ((if lost then p.thrown else p').holds = none ∨ (if lost then p.thrown else p').holds = p.holds ∨
        ∃ order round, p = .locking order round ∧ call = .lock ∧ lockCount s.db order.hash ≠ 0 ∧
          (if lost then p.thrown else p').holds = some order.hash) := by
  cases lost with
  | true => exact (holds_thrown job).imp_right fun held => held.imp_right .inl
  | false => exact holds_procStep noneSubmitted job move

/-- **The lock rule**: a call that overrides nobody's lock keeps one job for each order. -/
theorem Exclusive.call (h : Exclusive s) {i : Nat} {call : Call} {lost : Bool} {p p' : Proc}
    (here : s.procs[i]? = some p) (ok : lockSafe s (.call i call lost) = true)
    (move : procStep keccak256 s p call = some (s', p')) :
    Exclusive { s' with procs := s.procs.set i (if lost then p.thrown else p') } := by
  have hp := List.mem_of_getElem? here
  obtain ⟨job, held⟩ := holds_call lost h.noneSubmitted (h.jobs p hp) move
  have after := statuses_procStep move
  have gone : p.thrown.holds = none → (∀ s₁ p', procStep keccak256 s p call = some (s₁, p') →
      p'.holds = none) → (if lost then p.thrown else p').holds = none := by
    intro thrown ended
    cases lost with
    | true => exact thrown
    | false => exact ended _ _ move
  generalize (if lost then p.thrown else p') = p'' at job held gone
  -- a job that now holds an order it did not hold before took it from nobody
  have apart : ∀ {j : Nat} {q : Proc} {hash : Bytes32}, s.procs[j]? = some q → q.holds = some hash →
      p''.holds = some hash → i = j := by
    intro j q hash hq hold hold''
    rcases held with none | same | ⟨order, round, -, -, count, locks⟩
    · rw [none] at hold''
      cases hold''
    · exact h.one i j p q hash here hq (same ▸ hold'') hold
    · obtain ⟨status, -, -, free⟩ := h.unlocked count
      rw [locks] at hold''
      exact absurd (hold.trans hold''.symm) (free q (List.mem_of_getElem? hq))
  constructor
  case hashes =>
    rw [after, List.map_map]
    exact h.hashes
  case noneSubmitted =>
    intro e he
    rw [after] at he
    obtain ⟨old, row, rfl⟩ := List.mem_map.1 he
    rcases rewritten_eq (p.writes call) old.1 old.2 with same | ⟨found, left, write, -, is⟩
    · exact fun submitted => h.noneSubmitted old row (same.symm.trans submitted)
    · exact fun submitted => writes_left write (is.symm.trans submitted)
  case jobs =>
    intro q hq
    rcases List.mem_or_eq_of_mem_set hq with old | rfl
    · exact h.jobs q old
    · exact job
  case one =>
    intro j k q r hash hq hr hold hold'
    rcases Table.of_getElem?_set hq with ⟨rfl, rfl⟩ | ⟨other, old⟩
    · rcases Table.of_getElem?_set hr with ⟨rfl, -⟩ | ⟨-, old⟩
      · rfl
      · exact apart old hold' hold
    · rcases Table.of_getElem?_set hr with ⟨rfl, rfl⟩ | ⟨-, old'⟩
      · exact (apart old hold hold').symm
      · exact h.one j k q r hash old old' hold hold'
  case locked =>
    intro q hq hash hold status he
    rw [after] at he
    obtain ⟨⟨hash, old⟩, row, same⟩ := List.mem_map.1 he
    cases same
    obtain ⟨j, hq⟩ := List.getElem?_of_mem hq
    -- an order that was locked before is locked still
    have kept : ∀ {r : Proc}, r ∈ s.procs → r.holds = some hash →
        (p.holds = some hash → p.thrown.holds = none → (∀ s₁ p',
          procStep keccak256 s p call = some (s₁, p') → p'.holds = none) → False) →
        Locked (rewritten (p.writes call) hash old) := by
      intro r hr held other
      have was := h.locked r hr hash held old row
      rcases rewritten_eq (p.writes call) hash old with same | ⟨found, left, write, mem, is⟩
      · rw [same]
        exact was
      · rcases h.lockedWrite here ok hr held write was mem with success | ⟨own, thrown, ended⟩
        · exact .inr (is.trans success)
        · exact (other own thrown ended).elim
    rcases Table.of_getElem?_set hq with ⟨rfl, rfl⟩ | ⟨other, hq⟩
    · rcases held with none | same | ⟨order, round, rfl, rfl, count, locks⟩
      · rw [none] at hold
        cases hold
      · refine kept hp (same ▸ hold) fun _ thrown ended => ?_
        rw [gone thrown ended] at hold
        cases hold
      · obtain ⟨status, relayable, row', -⟩ := h.unlocked count
        rw [locks] at hold
        cases hold
        obtain rfl : old = status :=
          (Prod.mk.inj (List.inj_on_of_nodup_map h.hashes row row' rfl)).2
        exact .inl (if_pos ⟨rfl, relayable⟩)
    · exact kept (List.mem_of_getElem? hq) hold fun own _ _ =>
        other (h.one i j p q hash here hq own hold).symm

/-- A process that has just started holds nothing. -/
theorem Exclusive.start (h : Exclusive s) {p : Proc} (idle : p.holds = none) (job : p.confirms = false) :
    Exclusive { s with procs := s.procs ++ [p] } := by
  have old : ∀ {j : Nat} {q : Proc} {hash : Bytes32}, (s.procs ++ [p])[j]? = some q →
      q.holds = some hash → s.procs[j]? = some q := by
    intro j q hash hq hold
    rcases Table.of_getElem?_concat hq with old | ⟨-, rfl⟩
    · exact old
    · rw [idle] at hold
      cases hold
  constructor
  case hashes => exact h.hashes
  case noneSubmitted => exact h.noneSubmitted
  case jobs =>
    intro q hq
    rcases List.mem_append.1 hq with old | new
    · exact h.jobs q old
    · rw [List.mem_singleton.1 new]
      exact job
  case one =>
    exact fun i j q r hash hq hr hold hold' =>
      h.one i j q r hash (old hq hold) (old hr hold') hold hold'
  case locked =>
    intro q hq hash hold
    obtain ⟨j, hq⟩ := List.getElem?_of_mem hq
    exact h.locked q (List.mem_of_getElem? (old hq hold)) hash hold

/-- The deferred orders that the reconciler queues again are nobody's. -/
theorem Exclusive.requeue (h : Exclusive s) : Exclusive { s with db := requeueDeferred s.db } := by
  have after : statuses (requeueDeferred s.db) =
      (statuses s.db).map fun e => (e.1, if e.2 = .DEFERRED then .QUEUED else e.2) := by
    rw [statuses, statuses, requeueDeferred, Table.updateMany, List.map_map, List.map_map]
    refine List.map_congr_left fun o _ => ?_
    by_cases deferred : o.status = .DEFERRED
    · simp [deferred]
    · simp [deferred]
  constructor
  case hashes =>
    rw [after, List.map_map]
    exact h.hashes
  case noneSubmitted =>
    intro e he
    rw [after] at he
    obtain ⟨old, row, rfl⟩ := List.mem_map.1 he
    by_cases deferred : old.2 = .DEFERRED
    · simp [deferred]
    · exact (if_neg deferred).trans_ne (h.noneSubmitted old row)
  case jobs => exact h.jobs
  case one => exact h.one
  case locked =>
    intro p hp hash hold status he
    rw [after] at he
    obtain ⟨⟨hash, old⟩, row, same⟩ := List.mem_map.1 he
    cases same
    have was := h.locked p hp hash hold old row
    rwa [if_neg (by rcases was with rfl | rfl <;> simp)]

theorem Exclusive.step (h : Exclusive s) {a : Action} (ok : lockSafe s a = true)
    (hs : step keccak256 s a = some s') : Exclusive s' := by
  cases stepMove hs with
  | job | confirm | reset => exact h.start rfl rfl
  | requeue => exact h.requeue
  | call here move => exact h.call here ok move
  | mine | revert | rollover => exact ⟨h.hashes, h.noneSubmitted, h.jobs, h.one, h.locked⟩

end Steps

/-- The relay when no order's single transaction is under way. -/
def chunkedMachine (keccak256 : String → Bytes32) : Machine State Action where
  init s := Initial keccak256 s ∧ ∀ o ∈ s.db.relayOrders, o.status ≠ .BASE_SUBMITTED
  step := step keccak256

theorem Exclusive.initial {keccak256 : String → Bytes32} {s : State} (hi : Initial keccak256 s)
    (noneSubmitted : ∀ o ∈ s.db.relayOrders, o.status ≠ .BASE_SUBMITTED) : Exclusive s where
  hashes := by
    rw [statuses, List.map_map]
    exact hi.orderHashes
  noneSubmitted e he := by
    obtain ⟨o, ho, rfl⟩ := List.mem_map.1 he
    exact noneSubmitted o ho
  jobs p hp := by
    rw [hi.noProcs] at hp
    exact absurd hp List.not_mem_nil
  one i j p q hash hp := by
    rw [hi.noProcs] at hp
    cases hp
  locked p hp := by
    rw [hi.noProcs] at hp
    exact absurd hp List.not_mem_nil

theorem exclusive_of_reachable {keccak256 : String → Bytes32} {s : State}
    (h : (chunkedMachine keccak256).ReachableBy (fun s a => lockSafe s a = true) s) : Exclusive s :=
  Machine.ReachableBy.invariant (M := chunkedMachine keccak256) (I := Exclusive)
    (fun _ hi => .initial hi.1 hi.2) (fun _ _ _ inv ok hs => inv.step ok hs) h

/-- **One job at a time**: as long as nobody overrides a lock, at most one job is past the lock of an
order, whose status says so; no order is ever left in BASE_SUBMITTED; and no two jobs have the same
ticket in hand. -/
theorem one_job_at_a_time (keccak256 : String → Bytes32) (s : State)
    (h : (chunkedMachine keccak256).ReachableBy (fun s a => lockSafe s a = true) s) :
    (∀ (i j : Nat) p q hash, s.procs[i]? = some p → s.procs[j]? = some q → p.holds = some hash →
        q.holds = some hash → i = j) ∧
      (∀ p ∈ s.procs, ∀ hash, p.holds = some hash → ∀ o ∈ s.db.relayOrders, o.hash = hash →
        o.status = .PROCESSING ∨ o.status = .SUCCESS) ∧
      (∀ o ∈ s.db.relayOrders, o.status ≠ .BASE_SUBMITTED) ∧
      ∀ (i j : Nat) order round phase order' round' phase',
        s.procs[i]? = some (.relaying order round phase) →
        s.procs[j]? = some (.relaying order' round' phase') → i ≠ j →
        ∀ c ∈ phase.inHand, ∀ c' ∈ phase'.inHand, c.id ≠ c'.id := by
  have excl := exclusive_of_reachable h
  have owned : Owned s := owned_of_reachable
    (Machine.ReachableBy.project (M := machine keccak256) (N := chunkedMachine keccak256) id
      (fun _ hi => hi.1) (fun _ a _ _ hs => .inr ⟨a, trivial, hs⟩) h)
  refine ⟨excl.one, fun p hp hash held o ho is => ?_, fun o ho => ?_, ?_⟩
  · exact excl.locked p hp hash held o.status (List.mem_map.2 ⟨o, ho, by rw [is]⟩)
  · exact excl.noneSubmitted _ (List.mem_map_of_mem ho)
  · intro i j order round phase order' round' phase' hi hj other c hc c' hc' same
    have mine := (owned.jobs _ _ _ (List.mem_of_getElem? hi)).inHand c hc
    have mine' := (owned.jobs _ _ _ (List.mem_of_getElem? hj)).inHand c' hc'
    obtain ⟨t, ht, id⟩ := List.mem_map.1 mine
    have order_eq := order_of_mine owned.ticketIds mine (mem_rowsOf.1 ht).1 id
    have order_eq' := order_of_mine owned.ticketIds mine' (mem_rowsOf.1 ht).1 (id.trans same)
    refine other (excl.one i j _ _ order.hash hi hj rfl ?_)
    exact congrArg some (order_eq'.symm.trans order_eq)

/-- Two jobs for one order, both at the lock. -/
def atTheLock (tickets : List ChunkTicket) : List Action :=
  [0, 1].flatMap fun i => (lockJob i 1 tickets).dropLast

/-- The first job takes the lock and the second gives up; a third dies before it gets there. -/
theorem one_job_at_a_time_twoJobs : ∃ s : State, (s.procs.any fun p => p.holds == some "signature") = true ∧
    ∀ (i j : Nat) p q hash, s.procs[i]? = some p → s.procs[j]? = some q → p.holds = some hash →
      q.holds = some hash → i = j := by
  have initial := initial_queued (alike ["1-"]) (by decide) (by decide +kernel)
  obtain ⟨s, hs, taken⟩ := Machine.exists_reachableBy_of_runBy (M := chunkedMachine id) lockSafe
    ⟨initial, fun o ho => by cases List.mem_singleton.1 ho; exact nofun⟩
    (atTheLock (alike ["1-"]) ++ [.call 0 .lock false, .call 1 .lock false] ++
      [.job "signature", .call 2 .crash false, .call 0 (.findStuck []) false] ++
      sendChunk 0 (alike ["1-"]) "b" "0x1")
    (fun s : State => s.procs.any fun p => p.holds == some "signature") (by decide +kernel)
  exact ⟨s, taken, (one_job_at_a_time id s hs).1⟩

/-- The lock alone does not do it. A job that found Megapot locked writes DEFERRED after another has
taken the lock; the reconciler queues the order again, and a third job takes the same lock. -/
theorem lock_overridden : ¬ ∀ s : State, (chunkedMachine id).Reachable s →
    ∀ (i j : Nat) p q hash, s.procs[i]? = some p → s.procs[j]? = some q → p.holds = some hash →
      q.holds = some hash → i = j := by
  intro all
  have initial := initial_queued (alike ["1-"]) (by decide) (by decide +kernel)
  obtain ⟨s, hs, both⟩ := Machine.exists_reachable_of_run (M := chunkedMachine id)
    ⟨initial, fun o ho => by cases List.mem_singleton.1 ho; exact nofun⟩
    ([.job "signature", .call 0 (.read (alike ["1-"])) false, .call 0 (.gate 1 true) false] ++
      lockJob 1 1 (alike ["1-"]) ++ [.call 0 .write false, .requeue] ++ lockJob 2 1 (alike ["1-"]))
    (fun s : State => (s.procs[1]?.any fun p => p.holds == some "signature") &&
      s.procs[2]?.any fun p => p.holds == some "signature") (by decide +kernel)
  simp only [Bool.and_eq_true, Option.any_eq_true, beq_iff_eq] at both
  obtain ⟨⟨p, hp, first⟩, q, hq, second⟩ := both
  exact absurd (all s hs 1 2 p q _ hp hq first second) (by decide)

end LordsPot.Relay
